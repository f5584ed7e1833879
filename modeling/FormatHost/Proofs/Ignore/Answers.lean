/-
FormatHost.Proofs.Ignore.Answers — what a cache of ignore rules answers and
reports.

After any history a look at a file is answered by the latest refresh of that
file. A file that is missing is reported by the first look that may report
it and finds it so, and by none after that, whatever happens to the file.

* §1 `reports`: the lines that say that a file is missing;
* §2 `reports_perform`: a file is reported once if it was met missing;
* §3 `answers_follow_refreshes`.
-/
import FormatHost.Proofs.Ignore.History

namespace FormatHost.Ignore.Cache

open Run

/-! ## §1 Reports -/

/-- What stands between a front and a back. -/
def between? (front back text : String) : Option String := do
  let rest ← Text.stripFront front.toList text.toList
  let rest ← Text.stripFront back.toList.reverse rest.reverse
  return String.ofList rest.reverse

theorem between?_append (front back text : String) :
    between? front back (front ++ text ++ back) = some text := by
  simp [between?, Text.stripFront_append, List.append_assoc]

theorem between?_of_stripFront {front back text : String}
    (h : Text.stripFront front.toList text.toList = none) : between? front back text = none := by
  rw [between?, h]
  rfl

/-- The file that an event reports to be missing. -/
def reported? : Event → Option Path
  | .log .warn text => (between? "Configured ignorePath " " does not exist" text).map Path.mk
  | _ => none

theorem reported?_missingText (f : Path) : reported? (.log .warn (missingText f)) = some f :=
  congrArg (Option.map Path.mk) (between?_append "Configured ignorePath " " does not exist" f.text)

/-- The reports that a file is missing, among events. -/
def reports (file : Path) (es : List Event) : List Event :=
  es.filter fun e => (reported? e).any (· == file)

@[simp] theorem reports_append (file : Path) (a b : List Event) :
    reports file (a ++ b) = reports file a ++ reports file b := List.filter_append ..

/-- The operation reports no file. -/
abbrev ReportsNone {α : Type} (x : Run Cache α) : Prop := Emits (reported? · = none) x

theorem ReportsNone.reports_eq {α : Type} {x : Run Cache α} (h : ReportsNone x) (file : Path)
    (c : Cache) : reports file (x c).events = [] :=
  List.filter_eq_nil_iff.mpr fun e he => by simp [h c e he]

/-- Lines that are no rules are reported in other words. -/
theorem reportsNone_load (m : Machine) (f : Path) : ReportsNone (load m f) := by
  unfold load Matcher.load
  refine (emits_emitAll fun e he => ?_).bind fun _ => emits_pure _
  obtain ⟨text, ht, rfl⟩ := List.mem_map.mp he
  split at ht
  · obtain ⟨problem, -, rfl⟩ := List.mem_map.mp ht
    have hs : "Skipping invalid pattern in ".toList = 'S' :: "kipping invalid pattern in ".toList :=
      rfl
    have hn : between? "Configured ignorePath " " does not exist"
        ("Skipping invalid pattern in " ++ f.text ++ ": " ++ problem.message) = none := by
      refine between?_of_stripFront ?_
      rw [String.toList_append, String.toList_append, String.toList_append, hs]
      rfl
    exact congrArg (Option.map Path.mk) hn
  · cases ht

theorem reportsNone_matcher (m : Machine) (f : Path) : ReportsNone (matcher m f) :=
  emits_matcher_of_load m (reportsNone_load m f)

theorem reportsNone_invalidate (m : Machine) (f : Path) : ReportsNone (invalidate m f) :=
  (reportsNone_load m f).bind fun _ => emits_modify _

theorem reportsNone_invalidateEach (m : Machine) (fs : List Path) :
    ReportsNone (invalidateEach m fs) := by
  induction fs with
  | nil => exact emits_pure _
  | cons f fs ih => exact (reportsNone_invalidate m f).bind fun _ => ih

theorem keeps_matcher (m : Machine) (f : Path) : Keeps warned (matcher m f) := by
  unfold matcher
  refine keeps_get.bind fun c => ?_
  split
  · exact keeps_pure _
  · refine Keeps.bind (fun _ => rfl) fun rules => ?_
    unfold putIfAbsent
    refine keeps_get.bind fun c => ?_
    split
    · exact keeps_pure _
    · exact Keeps.bind (fun _ => rfl) fun _ => keeps_pure _

theorem keeps_invalidateEach (m : Machine) (fs : List Path) :
    Keeps warned (invalidateEach m fs) := by
  induction fs with
  | nil => exact keeps_pure _
  | cons f fs ih => exact Keeps.bind (fun _ => rfl) fun _ => ih

/-! ## §2 Who is reported -/

/-- The occasion is a look at the file that is told to report it, and goes by
the rules of a file that was missing. -/
def meets (file : Path) (c : Cache) (o : Occasion) : Bool :=
  match o.action with
  | .isIgnored _ f false => f == file && !(c.rulesFor o.machine f).isPresent
  | _ => false

/-- What an operation does about a file that it meets, or does not meet: it
is reported when it is met and has not been reported, and from then on has
been. -/
structure Reporting (file : Path) (met : Bool) (c : Cache) (o : Outcome Cache Unit) : Prop where
  reports : (reports file o.events).length = if met && !c.warned.contains file then 1 else 0
  warned : o.state.warned.contains file = (c.warned.contains file || met)

/-- Operations that report nothing and do not change what was reported. -/
theorem reporting_of_quiet {x : Run Cache Unit} (he : ReportsNone x) (hk : Keeps warned x)
    (file : Path) (c : Cache) : Reporting file false c (x c) where
  reports := by rw [he.reports_eq]; rfl
  warned := by rw [hk c, Bool.or_false]

/-- Quiet steps before an operation do not count. -/
theorem Reporting.after_quiet {α : Type} {x : Run Cache α} {file : Path} {met : Bool} {c : Cache}
    {o : Outcome Cache Unit} (he : ReportsNone x) (hk : Keeps Cache.warned x)
    (ho : Reporting file met (x c).state o) :
    Reporting file met c ⟨(), o.state, (x c).events ++ o.events⟩ where
  reports := by rw [reports_append, he.reports_eq, List.nil_append, ho.reports, hk c]
  warned := by rw [← hk c, ← ho.warned]

theorem contains_congr {f file : Path} (h : (f == file) = true) (fs : List Path) :
    fs.contains f = fs.contains file := by
  rw [List.contains_eq_any_beq, List.contains_eq_any_beq]
  congr 1
  funext g
  exact BEq.congr_left h

/-- Reporting a missing file. -/
theorem warnMissing_reporting (f file : Path) (c : Cache) :
    Reporting file (f == file) c (warnMissing f c) := by
  have hrun : warnMissing f c = if c.warned.contains f then ⟨(), c, []⟩
      else ⟨(), { c with warned := c.warned ++ [f] }, [.log .warn (missingText f)]⟩ := by
    by_cases hw : c.warned.contains f = true <;> simp [warnMissing, hw, warn]
  rw [hrun]
  cases hf : f == file with
  | true =>
    rw [contains_congr hf]
    cases hw : c.warned.contains file with
    | true => exact ⟨by simp [reports, hw], by simp [hw]⟩
    | false =>
      refine ⟨by simp [reports, reported?_missingText, hf, hw], ?_⟩
      have hf' : (file == f) = true := PartialEquivBEq.symm hf
      simp [List.contains_eq_any_beq, hf']
  | false =>
    split
    · exact ⟨by simp [reports], by simp⟩
    · refine ⟨by simp [reports, reported?_missingText, hf], ?_⟩
      have hf' : (file == f) = false := by rw [BEq.comm, hf]
      simp [List.contains_eq_any_beq, hf']

/-- **One occasion reports a file** exactly when it meets it and it has not
been reported. -/
theorem Occasion.reporting (o : Occasion) (file : Path) (c : Cache) :
    Reporting file (meets file c o) c (o.run c) := by
  obtain ⟨m, action⟩ := o
  cases action with
  | matcher f =>
    exact reporting_of_quiet ((reportsNone_matcher m f).bind fun _ => emits_pure _)
      ((keeps_matcher m f).bind fun _ => keeps_pure _) file c
  | isIgnored document f isDefault =>
    -- the rules that the look goes by decide whether there is a report
    have hv := matcher_value m f c
    have hmeets : meets file c ⟨m, .isIgnored document f isDefault⟩ =
        (f == file && !((c.rulesFor m f).isPresent || isDefault)) := by
      cases isDefault <;> simp [meets]
    have hrun : Occasion.run ⟨m, .isIgnored document f isDefault⟩ c =
        let report := (if (c.rulesFor m f).isPresent || isDefault then pure () else warnMissing f :
          Run Cache Unit) (matcher m f c).state
        ⟨(), report.state, (matcher m f c).events ++ report.events⟩ := by
      simp only [Occasion.run, Action.run, isIgnored, bind_apply, hv]
      cases (c.rulesFor m f).isPresent <;> cases isDefault <;> simp
    rw [hrun, hmeets]
    refine Reporting.after_quiet (reportsNone_matcher m f) (keeps_matcher m f) ?_
    cases (c.rulesFor m f).isPresent || isDefault with
    | true =>
      rw [Bool.not_true, Bool.and_false]
      exact reporting_of_quiet (emits_pure _) (keeps_pure _) file _
    | false =>
      rw [Bool.not_false, Bool.and_true]
      exact warnMissing_reporting f file _
  | get f =>
    exact reporting_of_quiet (emits_get.bind fun _ => emits_pure _)
      (keeps_get.bind fun _ => keeps_pure _) file c
  | invalidate f => exact reporting_of_quiet (reportsNone_invalidate m f) (fun _ => rfl) file c
  | invalidateAll =>
    exact reporting_of_quiet (emits_get.bind fun c => reportsNone_invalidateEach m _)
      (keeps_get.bind fun c => keeps_invalidateEach m _) file c
  | handle e =>
    refine reporting_of_quiet ?_ (fun c => ?_) file c
    · show ReportsNone (handle m e)
      unfold handle
      split
      · exact emits_modify _
      · exact reportsNone_invalidate m _
    · show (handle m e c).state.warned = c.warned
      unfold handle
      cases e.change <;> rfl

/-- Some look of the history met the file missing. -/
def Met (file : Path) (history : List Occasion) : Prop :=
  ∃ before o rest, history = before ++ o :: rest ∧ meets file (after before) o = true

theorem not_met_nil (file : Path) : ¬ Met file [] := by
  rintro ⟨before, o, rest, h, -⟩
  simp at h

theorem met_concat {file : Path} {history : List Occasion} {o : Occasion} :
    Met file (history ++ [o]) ↔ Met file history ∨ meets file (after history) o = true := by
  constructor
  · rintro ⟨before, o', rest, h, hm⟩
    rcases List.eq_nil_or_concat rest with rfl | ⟨rest, last, rfl⟩
    · obtain ⟨rfl, ho⟩ := List.append_inj' h rfl
      cases ho
      exact .inr hm
    · rw [List.concat_eq_append, ← List.cons_append, ← List.append_assoc] at h
      obtain ⟨rfl, -⟩ := List.append_inj' h rfl
      exact .inl ⟨before, o', rest, rfl, hm⟩
  · rintro (⟨before, o', rest, rfl, hm⟩ | hm)
    · exact ⟨before, o', rest ++ [o], by simp, hm⟩
    · exact ⟨history, o, [], rfl, hm⟩

/-- **A file is reported once if some look met it missing**, and else never. -/
theorem reports_perform (file : Path) (history : List Occasion) :
    (reports file (perform history {}).events).length =
        (if (after history).warned.contains file then 1 else 0) ∧
      ((after history).warned.contains file = true ↔ Met file history) := by
  induction history using List.reverseRecOn with
  | nil => exact ⟨rfl, by simp [after, perform, not_met_nil]⟩
  | append_singleton history o ih =>
    obtain ⟨hn, hc⟩ := ih
    have ho := o.reporting file (after history)
    rw [after_concat, perform_events_concat, reports_append, List.length_append, hn, ho.reports,
      ho.warned, met_concat, ← hc]
    cases (after history).warned.contains file <;> cases meets file (after history) o <;> simp

/-! ## §3 Answers -/

/-- The actions that are about the file spell it as `file` does. -/
def SpelledAlike (file : Path) (history : List Occasion) : Prop :=
  ∀ o ∈ history, ∀ f, o.action.file? = some f → (f == file) = true → f = file

/-- Whether a document is ignored, by a refresh of the ignore file: not when
the file was said to be deleted, and else when the rules that were there
exclude it. -/
def Refresh.answer (r : Refresh) (document : Path) : Bool :=
  match r.machine? with
  | some m => (Matcher.load m r.file).1.isMatch document
  | none => false

theorem Refresh.excludes_rules (r : Refresh) (document : Path) :
    r.rules.excludes document = r.answer document := by
  unfold rules answer
  cases r.machine? with
  | some m => exact Matcher.excludes_load m r.file document
  | none => rfl

/-- A look goes by the refresh that is the latest after it. -/
theorem rulesFor_after (history : List Occasion) (m : Machine) (document file : Path)
    (isDefault : Bool) :
    (latest? file (history ++ [⟨m, .isIgnored document file isDefault⟩])).map Refresh.rules =
      some ((after history).rulesFor m file) := by
  have hg : (after history).get? file = _ := ((recalls_after history).stands file).entry
  have hr : ∀ past, refresh? file past ⟨m, .isIgnored document file isDefault⟩ =
      if past.isEmpty then some ⟨file, some m⟩ else none := by
    intro past
    simp [refresh?]
  rw [latest?, refreshes_concat, rulesFor, hg, hr]
  cases refreshes file history with
  | nil => rfl
  | cons first rest =>
    rw [List.isEmpty_cons, if_neg Bool.false_ne_true, Option.toList_none, List.append_nil,
      List.getLast?_eq_some_getLast (List.cons_ne_nil first rest)]
    rfl

/-- An action about another file is no refresh. -/
theorem refresh?_of_ne {file f : Path} {o : Occasion} (ho : o.action.file? = some f)
    (hf : (f == file) = false) (past : List Refresh) : refresh? file past o = none := by
  obtain ⟨m, action⟩ := o
  cases action <;> cases ho <;> simp [refresh?, hf]

/-- **The cache answers by the latest refresh of the file.** After any
history of actions, between which the files may have changed at will, a look
at a file is answered by the latest refresh of that file, the look itself
included when it is the first: no document is ignored when that was a
deletion, and else those are that the ignore file excluded as it was then,
read under the spelling that the refresh had, which is the file's own in a
history that spells it in one way. A file that has an entry keeps having
one. Actions about other files leave its entry as it is. Over the whole
history it is reported to be missing once if some look that may report met
it missing, and else never. -/
theorem answers_follow_refreshes (history : List Occasion) (file : Path) :
    (∀ m document isDefault, ∃ r,
      latest? file (history ++ [⟨m, .isIgnored document file isDefault⟩]) = some r ∧
      (isIgnored m document file isDefault (after history)).value = r.answer document ∧
      (r.file == file) = true ∧ (SpelledAlike file history → r.file = file)) ∧
    (∀ o, ((after history).get? file).isSome = true →
      ((after (history ++ [o])).get? file).isSome = true) ∧
    (∀ o f, o.action.file? = some f → (f == file) = false →
      (after (history ++ [o])).get? file = (after history).get? file) ∧
    (reports file (perform history {}).events).length ≤ 1 ∧
    ((reports file (perform history {}).events).length = 1 ↔ Met file history) := by
  have hentry : ∀ h, (after h).get? file = (refreshes file h).getLast?.map Refresh.rules :=
    fun h => ((recalls_after h).stands file).entry
  refine ⟨fun m document isDefault => ?_, fun o hs => ?_, fun o f ho hf => ?_, ?_⟩
  · have hl := rulesFor_after history m document file isDefault
    obtain ⟨r, hr, hrules⟩ := Option.map_eq_some_iff.mp hl
    obtain ⟨hf, o, ho, hfile⟩ := file_of_mem_refreshes (List.mem_of_getLast? hr)
    refine ⟨r, hr, ?_, hf, fun halike => ?_⟩
    · rw [isIgnored_value, ← hrules, Refresh.excludes_rules]
    · rcases List.mem_append.mp ho with ho | ho
      · exact halike o ho _ hfile hf
      · rw [List.mem_singleton.mp ho] at hfile
        exact (Option.some.inj hfile).symm
  · rw [hentry] at hs ⊢
    rw [refreshes_concat]
    cases hp : refreshes file history with
    | nil =>
      rw [hp] at hs
      cases hs
    | cons first rest => simp
  · rw [hentry, hentry, refreshes_concat, refresh?_of_ne ho hf, Option.toList_none,
      List.append_nil]
  · obtain ⟨hn, hc⟩ := reports_perform file history
    rw [hn, ← hc]
    cases (after history).warned.contains file <;> simp

end FormatHost.Ignore.Cache
