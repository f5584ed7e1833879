/-
FormatHost.Proofs.Service.Gates — which gate stops a request, and what the
user then sees.

A request passes six gates in a fixed order. `Gate.fires` says of each,
without running the request, whether it would stop it; `firstGate?` is the
first that does. The main result ties them to a run from any state, with
any files, settings and formatter: the formatter's `format` is called
exactly when no gate fires, then once and on the whole text, and the last
status and the returned text are those of the gate or of the call.

* §1 `Gate`: the gates, their statuses and when they fire;
* §2 `course_gate`: the first gate that fires ends the course;
* §3 what a run calls, shows and gives.
-/
import FormatHost.Proofs.Service.Course

namespace FormatHost

/-! ## §1 Gates -/

/-- What can stop a request, in the order in which it is asked. -/
inductive Gate
  /-- The language is turned off. -/
  | languageOff
  /-- There is no formatter. -/
  | noFormatter
  /-- Configuration is required and there is none. -/
  | configRequired
  /-- The ignore file excludes the document. -/
  | excluded
  /-- The formatter's own rules exclude the document. -/
  | declined
  /-- Nothing says which parser to use. -/
  | noParser
  deriving Repr, DecidableEq

namespace Gate

def all : List Gate :=
  [.languageOff, .noFormatter, .configRequired, .excluded, .declined, .noParser]

/-- The status that a gate leaves. -/
def status : Gate → Status
  | .languageOff => .disabled
  | .noFormatter => .error
  | .configRequired => .disabled
  | .excluded => .ignored
  | .declined => .ignored
  | .noParser => .error

open Service in
/-- Whether a gate would stop a request. A forced request passes by its
language, the ignore file and the formatter's rules, but not by required
configuration. -/
def fires (m : Machine) (s : Service) (r : FormatRequest) : Gate → Bool
  | .languageOff => !r.force && s.settings.isLanguageDisabled r.document.language
  | .noFormatter => (handleFor m s r).isNone
  | .configRequired => s.settings.requireConfig &&
      (handleFor m s r).any fun h => isUnconfigured (lookUpFor m s r h)
  | .excluded => !r.force && r.document.path?.any fun path =>
      (s.settings.ignoreFile m.home (s.folderOf r.document)).any fun file =>
        (s.ignore.rulesFor m file.1).excludes path
  | .declined => !r.force &&
      (handleFor m s r).any fun h => ((situationWith m s r h).fileInfo? m).any (·.ignored)
  | .noParser =>
      (handleFor m s r).any fun h => !((situationWith m s r h).parser m).isOk

end Gate

namespace Service

/-- The first gate that stops a request. -/
def firstGate? (m : Machine) (s : Service) (r : FormatRequest) : Option Gate :=
  Gate.all.find? (Gate.fires m s r)

/-! ## §2 The gate that ends a course -/

/-- A course that a gate has ended: no call, and the gate's status. -/
def StoppedBy (gate : Gate) (c : Course) : Prop :=
  c.calls = [] ∧ finalStatus c.ending = gate.status ∧ formattedText? c.ending = none

/-- What the course of a request is by the first gate that fires: stopped,
or that of a request with a formatter and a parser, which goes on to
format. -/
def GoesBy (m : Machine) (s : Service) (r : FormatRequest) (c : Course) : Option Gate → Prop
  | some gate => StoppedBy gate c
  | none => ∃ h parser, handleFor m s r = some h ∧
      (situationWith m s r h).parser m = .ok parser ∧
      c = (situationWith m s r h).formattingCourse m

/-- The gate of a parser ends the course of a request that has none. -/
theorem formattingCourse_gate {m : Machine} {s : Service} {r : FormatRequest} {h : Handle}
    (hh : handleFor m s r = some h) :
    GoesBy m s r ((situationWith m s r h).formattingCourse m)
      ([Gate.noParser].find? (Gate.fires m s r)) := by
  have hn : Gate.fires m s r .noParser = !((situationWith m s r h).parser m).isOk := by
    simp [Gate.fires, hh]
  cases hp : (situationWith m s r h).parser m with
  | error e =>
    rw [List.find?_cons_of_pos (by simp [hn, hp, Except.isOk, Except.toBool])]
    simp only [Situation.formattingCourse, hp]
    exact ⟨rfl, Parser.chosen_error_status _ _ _ _ _ _ hp, rfl⟩
  | ok parser =>
    rw [List.find?_cons_of_neg (by simp [hn, hp, Except.isOk, Except.toBool]), List.find?_nil]
    exact ⟨h, parser, hh, hp, rfl⟩

/-- The gates that follow once there is a formatter. -/
theorem courseWith_gate {m : Machine} {s : Service} {r : FormatRequest} {h : Handle}
    (hh : handleFor m s r = some h) :
    GoesBy m s r (courseWith m s r h)
      ([Gate.configRequired, .excluded, .declined, .noParser].find? (Gate.fires m s r)) := by
  have hc : (s.settings.requireConfig && isUnconfigured (lookUpFor m s r h)) =
      Gate.fires m s r .configRequired := by simp [Gate.fires, hh]
  have hx : (situationWith m s r h).isExcluded m s.ignore = Gate.fires m s r .excluded := rfl
  have hd : (situationWith m s r h).isDeclined m = Gate.fires m s r .declined := by
    simp [Gate.fires, hh, Situation.isDeclined, situationWith]
  rw [courseWith, hc, Situation.course, hx, hd]
  cases h1 : Gate.fires m s r .configRequired with
  | true =>
    rw [List.find?_cons_of_pos h1]
    exact ⟨rfl, rfl, rfl⟩
  | false =>
    rw [List.find?_cons_of_neg (by simp [h1]), if_neg Bool.false_ne_true]
    cases h2 : Gate.fires m s r .excluded with
    | true =>
      rw [List.find?_cons_of_pos h2]
      exact ⟨rfl, rfl, rfl⟩
    | false =>
      rw [List.find?_cons_of_neg (by simp [h2]), Bool.false_or]
      cases h3 : Gate.fires m s r .declined with
      | true =>
        rw [List.find?_cons_of_pos h3]
        exact ⟨rfl, rfl, rfl⟩
      | false =>
        rw [List.find?_cons_of_neg (by simp [h3]), if_neg Bool.false_ne_true]
        exact formattingCourse_gate hh

/-- **The course of a request goes by the first gate that fires.** -/
theorem course_gate (m : Machine) (s : Service) (r : FormatRequest) :
    GoesBy m s r (course m s r) (firstGate? m s r) := by
  have hl : (!r.force && s.settings.isLanguageDisabled r.document.language) =
      Gate.fires m s r .languageOff := rfl
  unfold firstGate? Gate.all course
  rw [hl]
  cases h1 : Gate.fires m s r .languageOff with
  | true =>
    rw [List.find?_cons_of_pos h1]
    exact ⟨rfl, rfl, rfl⟩
  | false =>
    rw [List.find?_cons_of_neg (by simp [h1]), if_neg Bool.false_ne_true]
    cases hh : handleFor m s r with
    | none =>
      rw [List.find?_cons_of_pos (by simp [Gate.fires, hh])]
      exact ⟨rfl, rfl, rfl⟩
    | some h =>
      rw [List.find?_cons_of_neg (by simp [Gate.fires, hh])]
      exact courseWith_gate hh

/-! ## §3 Runs -/

/-- The status and the text that a call of `format` leads to. -/
def afterCall (s : Except Failure (Option Options)) (own : String) :
    Except Failure String → Status × String
  | .error _ => (.error, own)
  | .ok text => (if s.isOk then .success else .warn, text)

/-- How the course of a request that no gate stops ends and what it calls. -/
theorem formattingCourse_ends (m : Machine) (s : Service) (r : FormatRequest) (h : Handle)
    {parser : String} (hp : (situationWith m s r h).parser m = .ok parser) :
    let c := situationWith m s r h
    let out := afterCall (lookUpFor m s r h) r.document.text (c.formatted m parser)
    (c.formattingCourse m).calls = [c.formatting parser] ∧
      finalStatus (c.formattingCourse m).ending = out.1 ∧
      (formattedText? (c.formattingCourse m).ending).getD r.document.text = out.2 := by
  intro c out
  simp only [Situation.formattingCourse, hp, out, c]
  cases (situationWith m s r h).formatted m parser with
  | error e =>
    refine ⟨rfl, ?_, rfl⟩
    simp [finalStatus, Situation.invocationFailure, afterCall, FormatFailure.status]
  | ok text =>
    refine ⟨rfl, ?_, rfl⟩
    cases hl : (lookUpFor m s r h).isOk <;> simp [finalStatus, situationWith, afterCall, hl]

/-- A run of `format` ends with the text, the calls and the status of its
course. -/
theorem format_follows (m : Machine) (s : Service) (r : FormatRequest) :
    let o := format m r s
    let c := course m s r
    formattings o.events = c.calls ∧ lastStatus o.events = some (finalStatus c.ending) ∧
      o.value = (formattedText? c.ending).getD r.document.text ∧
      o.state.statusBar.current = lastStatus o.events := by
  obtain ⟨hv, hc, hs, hb⟩ := execute_follows m r s
  have he : (format m r s).events = (execute m r s).events := by simp [format]
  dsimp only
  rw [he, hc, hs]
  refine ⟨rfl, rfl, ?_, ?_⟩
  · simp [format, hv]
  · simpa [format] using hb

/-- A call of `format` is made for the situation of the request, under the
formatter that it found and the parser that was chosen. -/
theorem exists_of_mem_formattings {m : Machine} {s : Service} {r : FormatRequest}
    {call : Formatting} (hm : call ∈ formattings (format m r s).events) :
    ∃ h parser, handleFor m s r = some h ∧ (situationWith m s r h).parser m = .ok parser ∧
      call = (situationWith m s r h).formatting parser := by
  rw [(format_follows m s r).1] at hm
  have hg := course_gate m s r
  cases hf : firstGate? m s r with
  | some gate =>
    rw [hf] at hg
    rw [hg.1] at hm
    cases hm
  | none =>
    rw [hf] at hg
    obtain ⟨h, parser, hh, hp, he⟩ := hg
    rw [he, (formattingCourse_ends m s r h hp).1, List.mem_singleton] at hm
    exact ⟨h, parser, hh, hp, hm⟩

theorem gate_status_ne (gate : Gate) : gate.status ≠ .success ∧ gate.status ≠ .warn := by
  cases gate <;> decide

/-- **What a request calls, shows and gives.** The formatter's `format` is
called exactly when no gate fires, then once and on the whole text. The
first gate that fires decides the last status, and the document stays as it
is. Otherwise the call decides both. The text given is the document's own
unless the last status is `success` or `warn`, and then it is the
formatter's output. -/
theorem format_gates (m : Machine) (s : Service) (r : FormatRequest) :
    let o := format m r s
    (match firstGate? m s r with
      | some gate => formattings o.events = [] ∧
          lastStatus o.events = some gate.status ∧ o.value = r.document.text
      | none => ∃ h parser, handleFor m s r = some h ∧
          (situationWith m s r h).parser m = .ok parser ∧
          let options := (situationWith m s r h).options parser
          let out := afterCall (lookUpFor m s r h) r.document.text
            (h.formatter.format m r.document.text options)
          formattings o.events = [⟨h.origin, r.document.text, options⟩] ∧
            lastStatus o.events = some out.1 ∧ o.value = out.2) ∧
    (if lastStatus o.events = some .success ∨ lastStatus o.events = some .warn then
      ∃ h options, handleFor m s r = some h ∧
        formattings o.events = [⟨h.origin, r.document.text, options⟩] ∧
        h.formatter.format m r.document.text options = .ok o.value
    else o.value = r.document.text) ∧
    o.state.statusBar.current = lastStatus o.events := by
  intro o
  obtain ⟨hc, hs, hv, hb⟩ := format_follows m s r
  refine and_assoc.mp ⟨?_, hb⟩
  have hg := course_gate m s r
  cases hf : firstGate? m s r with
  | some gate =>
    rw [hf] at hg
    obtain ⟨hn, he, ht⟩ := hg
    rw [hn] at hc
    rw [he] at hs
    rw [ht] at hv
    refine ⟨⟨hc, hs, hv⟩, ?_⟩
    have hne := gate_status_ne gate
    rw [if_neg (by simpa [o, hs] using hne)]
    exact hv
  | none =>
    rw [hf] at hg
    obtain ⟨h, parser, hh, hp, he⟩ := hg
    obtain ⟨ec, es, ev⟩ := formattingCourse_ends m s r h hp
    rw [he, ec] at hc
    rw [he, es] at hs
    rw [he, ev] at hv
    refine ⟨⟨h, parser, hh, hp, hc, hs, hv⟩, ?_⟩
    cases hr : (situationWith m s r h).formatted m parser with
    | error e =>
      rw [hr] at hs hv
      rw [if_neg (by simp [o, hs, afterCall])]
      exact hv
    | ok text =>
      rw [hr] at hs hv
      have hok : lastStatus o.events = some .success ∨ lastStatus o.events = some .warn := by
        simp only [o, hs, afterCall]
        cases (lookUpFor m s r h).isOk <;> simp
      rw [if_pos hok]
      exact ⟨h, _, hh, hc, hr.trans (congrArg _ hv.symm)⟩

end Service
end FormatHost
