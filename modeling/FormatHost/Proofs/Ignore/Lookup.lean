/-
FormatHost.Proofs.Ignore.Lookup — what a look at the ignore rules answers,
and which rules are remembered after it.

The rules of a file are those that were read before, or else those on disk
now (`rulesFor`). A document is ignored exactly when these rules exclude
it (`isIgnored_value`), whether or not the file is the default one; and
looking writes log lines and nothing else. A look remembers the rules it
read, an event replaces those of its file.
-/
import FormatHost.Ignore.Cache
import FormatHost.Proofs.Disk.Change
import FormatHost.Proofs.Run
import FormatHost.Proofs.Table

namespace FormatHost

def Event.isLog : Event → Bool
  | .log .. => true
  | _ => false

namespace Ignore

open Run

/-- Whether rules exclude a document. The rules of a missing file do not. -/
def Matcher.excludes (rules : Matcher) (document : Path) : Bool :=
  rules.isPresent && rules.isMatch document

namespace Matcher

theorem isMatch_null (source document : Path) : (null source).isMatch document = false := by
  unfold isMatch null
  split
  · rfl
  · dsimp only [decideFile]
    rw [List.isEmpty_nil, if_pos rfl]
    exact Bool.and_false _

/-- Rules that were read from disk exclude what they match. -/
theorem excludes_load (m : Machine) (file document : Path) :
    (load m file).1.excludes document = (load m file).1.isMatch document := by
  unfold load excludes
  split
  · rfl
  · rw [isMatch_null]
    rfl

/-- Files with one text, or with none, have the same rules. -/
theorem load_agree {m m' : Machine} {file : Path}
    (h : Disk.Agree (m'.readText file) (m.readText file)) :
    (load m' file).1 = (load m file).1 := by
  unfold load
  rcases h with h | ⟨e, e', h', h⟩
  · rw [h]
  · rw [h', h]

/-- Where there is no file there are no rules. -/
theorem load_of_not_isFile {m : Machine} {file : Path} (h : m.isFile file = false) :
    (load m file).1 = null file := by
  have hr : ∀ content, m.readText file ≠ .ok content := by
    intro content hc
    unfold Machine.readText Disk.readText Disk.readBytes at hc
    unfold Machine.isFile Disk.isFile at h
    rcases hl : m.disk.look m.cwd file with e | _ | ⟨bytes, executable⟩
    · rw [hl] at hc
      cases hc
    · rw [hl] at hc
      cases hc
    · rw [hl] at h
      cases h
  unfold load
  cases ht : m.readText file with
  | ok content => exact absurd ht (hr content)
  | error e => rfl

end Matcher

namespace Cache

/-- The rules that a look at a file goes by. -/
def rulesFor (c : Cache) (m : Machine) (file : Path) : Matcher :=
  (c.get? file).getD (Matcher.load m file).1

variable (m : Machine)

theorem matcher_value (file : Path) (c : Cache) :
    (matcher m file c).value = c.rulesFor m file := by
  simp only [matcher, rulesFor, bind_apply, get_apply]
  cases hg : c.get? file with
  | some rules => rfl
  | none => simp [load, emitAll, putIfAbsent, hg, put]

/-- A document is ignored when the rules of the file exclude it. -/
theorem isIgnored_value (document file : Path) (isDefault : Bool) (c : Cache) :
    (isIgnored m document file isDefault c).value = (c.rulesFor m file).excludes document := by
  simp only [isIgnored, bind_apply, matcher_value, Matcher.excludes]
  cases (c.rulesFor m file).isPresent with
  | true => rfl
  | false => cases isDefault <;> rfl

/-- **A look remembers the rules it goes by**, and forgets none. -/
theorem get?_isIgnored (document file : Path) (isDefault : Bool) (c : Cache) (file' : Path) :
    (isIgnored m document file isDefault c).state.get? file' =
      (c.get? file').or (if file == file' then some (Matcher.load m file).1 else none) := by
  have hmissing : Keeps (·.get? file') (warnMissing file) := by
    refine keeps_get_bind fun c => ?_
    split <;> rfl
  have hmatcher : (matcher m file c).state.get? file' =
      (c.get? file').or (if file == file' then some (Matcher.load m file).1 else none) := by
    simp only [matcher, bind_apply, get_apply]
    cases hg : c.get? file with
    | some rules =>
      cases hf : file == file' with
      | false => simp
      | true =>
        have hg' : c.get? file' = some rules := (Table.find?_congr _ hf).symm.trans hg
        simp [hg']
    | none =>
      simp only [load, bind_apply, emitAll, pure_apply, putIfAbsent, get_apply, hg, put,
        modify_apply]
      exact Table.find?_insert_of_none hg _ _
  rw [← hmatcher]
  simp only [isIgnored, bind_apply]
  split
  · rfl
  · cases isDefault with
    | true => rfl
    | false => exact hmissing _

/-- A look at a file does not change the rules that it goes by. -/
theorem rulesFor_isIgnored (document file : Path) (isDefault : Bool) (c : Cache) :
    (isIgnored m document file isDefault c).state.rulesFor m file = c.rulesFor m file := by
  rw [rulesFor, get?_isIgnored, Path.beq_refl, if_pos rfl]
  unfold rulesFor
  cases c.get? file <;> rfl

/-- The rules that an event tells of. -/
def told (e : WatchEvent) : Matcher :=
  match e.change with
  | .deleted => .null e.path
  | _ => (Matcher.load m e.path).1

/-- **An event replaces the rules of its file**, and no others. -/
theorem get?_handle (e : WatchEvent) (c : Cache) (file : Path) :
    (handle m e c).state.get? file =
      if e.path == file then some (told m e) else c.get? file := by
  have hput : ∀ rules (c : Cache), (put e.path rules c).state.get? file =
      if e.path == file then some rules else c.get? file :=
    fun rules c => Table.find?_insert c.matchers e.path rules file
  unfold handle told
  cases e.change with
  | deleted => exact hput _ c
  | created => exact hput _ c
  | changed => exact hput _ c

/-- When nothing is said to be deleted that is there, an event tells of the
rules on disk. -/
theorem told_eq_load {e : WatchEvent} (h : e.change = .deleted → m.isFile e.path = false) :
    told m e = (Matcher.load m e.path).1 := by
  unfold told
  split
  · rename_i hd
    exact (Matcher.load_of_not_isFile (h hd)).symm
  · rfl

theorem emits_load (file : Path) : Emits (·.isLog) (load m file) := by
  unfold load
  refine (emits_emitAll fun e he => ?_).bind fun _ => emits_pure _
  obtain ⟨text, -, rfl⟩ := List.mem_map.mp he
  rfl

/-- Asking for the rules of a file tells what loading them tells. -/
theorem emits_matcher_of_load {Q : Event → Prop} {file : Path} (h : Emits Q (load m file)) :
    Emits Q (matcher m file) := by
  unfold matcher
  refine emits_get.bind fun c => ?_
  split
  · exact emits_pure _
  · refine h.bind fun rules => ?_
    unfold putIfAbsent
    refine emits_get.bind fun c => ?_
    split
    · exact emits_pure _
    · exact (emits_modify _).bind fun _ => emits_pure _

theorem emits_matcher (file : Path) : Emits (·.isLog) (matcher m file) :=
  emits_matcher_of_load m (emits_load m file)

theorem emits_warnMissing (file : Path) : Emits (·.isLog) (warnMissing file) := by
  unfold warnMissing
  refine emits_get.bind fun c => ?_
  split
  · exact (emits_set _).bind fun _ => emits_warn (by rfl)
  · exact emits_pure _

theorem emits_isIgnored (document file : Path) (isDefault : Bool) :
    Emits (·.isLog) (isIgnored m document file isDefault) := by
  unfold isIgnored
  refine (emits_matcher m file).bind fun rules => ?_
  split
  · exact emits_pure _
  · dsimp only
    split
    · exact (emits_warnMissing file).bind fun _ => emits_pure _
    · exact emits_pure _

theorem emits_handle (e : WatchEvent) : Emits (·.isLog) (handle m e) := by
  unfold handle
  split
  · exact emits_modify _
  · exact (emits_load m e.path).bind fun _ => emits_modify _

end Cache
end Ignore
end FormatHost
