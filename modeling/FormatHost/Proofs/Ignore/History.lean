/-
FormatHost.Proofs.Ignore.History — what a cache of ignore rules holds, told
from what was done to it.

The cache is a table that six operations read and write, while the files
change as they like. What it holds for a file is told by the refreshes of
that file alone: the first look, every order to read it again, every event.
The rules are those of the latest refresh, read from the machine as it was
then; a deletion leaves none.

Paths are compared as the table compares them. Two spellings of a path are
one file, and a refresh reads it under the spelling that it was given.

* §1 actions, occasions and histories;
* §2 `refreshes`: what a history does to one file;
* §3 `Stands`: a table holds what the refreshes say;
* §4 `recalls_after`: so does the cache after every history.
-/
import FormatHost.Proofs.Ignore.Lookup
import Mathlib.Data.List.Induction

namespace FormatHost.Ignore.Cache

open Run

/-! ## §1 Histories -/

/-- What can be done to the cache. -/
inductive Action
  /-- The rules of a file are asked for, and read if need be. -/
  | matcher (file : Path)
  | isIgnored (document file : Path) (isDefault : Bool)
  /-- A look at what is there, which reads nothing. -/
  | get (file : Path)
  | invalidate (file : Path)
  | invalidateAll
  | handle (e : WatchEvent)

namespace Action

/-- The file that an action is about. -/
def file? : Action → Option Path
  | .matcher file => some file
  | .isIgnored _ file _ => some file
  | .get file => some file
  | .invalidate file => some file
  | .invalidateAll => none
  | .handle e => some e.path

/-- Do an action. -/
def run (m : Machine) : Action → Run Cache Unit
  | .matcher file => do let _ ← Cache.matcher m file
  | .isIgnored document file isDefault => do let _ ← Cache.isIgnored m document file isDefault
  | .get file => do let _ := (← Run.get).get? file
  | .invalidate file => Cache.invalidate m file
  | .invalidateAll => Cache.invalidateAll m
  | .handle e => Cache.handle m e

end Action

/-- An action, and the machine at that time. -/
structure Occasion where
  machine : Machine
  action : Action

def Occasion.run (o : Occasion) : Run Cache Unit := o.action.run o.machine

/-- Do what a history tells, one action after the other. -/
def perform : List Occasion → Run Cache Unit
  | [] => pure ()
  | o :: history => do
    o.run
    perform history

/-- The cache after a history, from an empty one. -/
def after (history : List Occasion) : Cache := (perform history {}).state

theorem perform_append (a b : List Occasion) (c : Cache) :
    (perform (a ++ b) c).state = (perform b (perform a c).state).state := by
  induction a generalizing c with
  | nil => rfl
  | cons o a ih => exact ih _

theorem after_concat (history : List Occasion) (o : Occasion) :
    after (history ++ [o]) = (o.run (after history)).state :=
  perform_append history [o] {}

theorem perform_events_concat (history : List Occasion) (o : Occasion) :
    (perform (history ++ [o]) {}).events =
      (perform history {}).events ++ (o.run (after history)).events := by
  have happend : ∀ c, (perform (history ++ [o]) c).events =
      (perform history c).events ++ (perform [o] (perform history c).state).events := by
    induction history with
    | nil => intro c; rfl
    | cons o' history ih =>
      intro c
      simp only [List.cons_append, perform, bind_apply, List.append_assoc]
      rw [ih]
      rfl
  rw [happend]
  exact congrArg _ (List.append_nil _)

/-! ## §2 Refreshes -/

/-- A time at which the rules of a file were fixed. -/
structure Refresh where
  /-- The file, as it was spelled then. -/
  file : Path
  /-- The machine that it was read from; none when it was said to be
  deleted. -/
  machine? : Option Machine

/-- The rules that a refresh gives. -/
def Refresh.rules (r : Refresh) : Matcher :=
  match r.machine? with
  | some m => (Matcher.load m r.file).1
  | none => .null r.file

/-- The refresh of a file that an occasion is, after `past` ones. A look is
one when it is the first. An order to read everything is one when there was
one before, and reads the file as that one spelled it. -/
def refresh? (file : Path) (past : List Refresh) (o : Occasion) : Option Refresh :=
  match o.action with
  | .matcher f => if f == file && past.isEmpty then some ⟨f, some o.machine⟩ else none
  | .isIgnored _ f _ => if f == file && past.isEmpty then some ⟨f, some o.machine⟩ else none
  | .get _ => none
  | .invalidate f => if f == file then some ⟨f, some o.machine⟩ else none
  | .invalidateAll => past.head?.map fun first => ⟨first.file, some o.machine⟩
  | .handle e =>
    if e.path == file then
      some ⟨e.path, if e.change = .deleted then none else some o.machine⟩
    else none

/-- The refreshes of a file in a history, in order. -/
def refreshes (file : Path) (history : List Occasion) : List Refresh :=
  history.foldl (fun past o => past ++ (refresh? file past o).toList) []

/-- The refresh of a file that counts. -/
def latest? (file : Path) (history : List Occasion) : Option Refresh :=
  (refreshes file history).getLast?

theorem refreshes_concat (file : Path) (history : List Occasion) (o : Occasion) :
    refreshes file (history ++ [o]) =
      refreshes file history ++ (refresh? file (refreshes file history) o).toList := by
  rw [refreshes, List.foldl_append]
  rfl

/-- A refresh of a file spells that file, as an action or an earlier refresh
did. -/
theorem file_of_refresh? {file : Path} {past : List Refresh} {o : Occasion} {r : Refresh}
    (h : refresh? file past o = some r) :
    (o.action.file? = some r.file ∧ (r.file == file) = true) ∨
      ∃ r' ∈ past, r'.file = r.file := by
  obtain ⟨m, action⟩ := o
  cases action with
  | matcher f =>
    obtain ⟨hf, hr⟩ := Option.ite_none_right_eq_some.mp h
    obtain rfl := Option.some.inj hr
    exact .inl ⟨rfl, (Bool.and_eq_true_iff.mp hf).1⟩
  | isIgnored d f isDefault =>
    obtain ⟨hf, hr⟩ := Option.ite_none_right_eq_some.mp h
    obtain rfl := Option.some.inj hr
    exact .inl ⟨rfl, (Bool.and_eq_true_iff.mp hf).1⟩
  | get f => cases h
  | invalidate f =>
    obtain ⟨hf, hr⟩ := Option.ite_none_right_eq_some.mp h
    obtain rfl := Option.some.inj hr
    exact .inl ⟨rfl, hf⟩
  | invalidateAll =>
    obtain ⟨first, hfirst, rfl⟩ := Option.map_eq_some_iff.mp h
    exact .inr ⟨first, List.mem_of_head? hfirst, rfl⟩
  | handle e =>
    obtain ⟨hf, hr⟩ := Option.ite_none_right_eq_some.mp h
    obtain rfl := Option.some.inj hr
    exact .inl ⟨rfl, hf⟩

/-- **Every refresh of a file spells it as some action of the history does.** -/
theorem file_of_mem_refreshes {file : Path} {history : List Occasion} {r : Refresh}
    (h : r ∈ refreshes file history) :
    (r.file == file) = true ∧ ∃ o ∈ history, o.action.file? = some r.file := by
  induction history using List.reverseRecOn generalizing r with
  | nil => cases h
  | append_singleton history o ih =>
    rw [refreshes_concat, List.mem_append] at h
    rcases h with h | h
    · obtain ⟨hf, o', ho, hr⟩ := ih h
      exact ⟨hf, o', List.mem_append_left _ ho, hr⟩
    · rcases file_of_refresh? (Option.mem_toList.mp h) with ⟨hr, hf⟩ | ⟨r', hr', he⟩
      · exact ⟨hf, o, List.mem_append_right _ (List.mem_singleton_self _), hr⟩
      · obtain ⟨hf, o', ho, hr⟩ := ih hr'
        rw [he] at hf hr
        exact ⟨hf, o', List.mem_append_left _ ho, hr⟩

/-! ## §3 What a table holds -/

/-- What a table of rules holds for a file is what its refreshes say: the
rules of the latest, under the spelling of the first. -/
structure Stands (t : PathMap Matcher) (file : Path) (past : List Refresh) : Prop where
  entry : t.find? file = past.getLast?.map Refresh.rules
  key : t.key? file = past.head?.map Refresh.file

section Tables

variable {t : PathMap Matcher} {file f : Path} {past : List Refresh}

theorem Stands.isEmpty (h : Stands t file past) : past.isEmpty = (t.find? file).isNone := by
  rw [h.entry]
  cases past <;> simp

/-- Storing rules under another file. -/
theorem Stands.insert_ne (h : Stands t file past) (hf : (f == file) = false) (rules : Matcher) :
    Stands (t.insert f rules) file past where
  entry := by rw [Table.find?_insert, hf, if_neg Bool.false_ne_true, h.entry]
  key := by rw [Table.key?_insert, hf, if_neg Bool.false_ne_true, h.key]

/-- Storing rules under the file is a refresh of it. -/
theorem Stands.insert (h : Stands t file past) (hf : (f == file) = true) (m? : Option Machine) :
    Stands (t.insert f (Refresh.rules ⟨f, m?⟩)) file (past ++ [⟨f, m?⟩]) where
  entry := by rw [Table.find?_insert, if_pos hf, List.getLast?_concat, Option.map_some]
  key := by
    have hk : t.key? f = t.key? file := Table.find?_congr t.spelled hf
    rw [Table.key?_insert, if_pos hf, hk, h.key]
    cases past <;> rfl

/-- Storing rules under some file. -/
theorem Stands.put (h : Stands t file past) (f : Path) (m? : Option Machine) :
    Stands (t.insert f (Refresh.rules ⟨f, m?⟩)) file
      (past ++ (if f == file then some ⟨f, m?⟩ else none : Option Refresh).toList) := by
  cases hf : f == file with
  | true => exact h.insert hf m?
  | false =>
    rw [if_neg Bool.false_ne_true, Option.toList_none, List.append_nil]
    exact h.insert_ne hf _

/-- A look stores rules under a file that has none. -/
theorem Stands.look (h : Stands t file past) (m : Machine) (f : Path) :
    Stands (if (t.find? f).isSome then t else t.insert f (Matcher.load m f).1) file
      (past ++ (if f == file && past.isEmpty then some ⟨f, some m⟩ else none :
        Option Refresh).toList) := by
  rw [h.isEmpty]
  cases hf : f == file with
  | true =>
    rw [Table.find?_congr t hf]
    cases hn : t.find? file with
    | some rules => simpa using h
    | none => exact h.insert hf (some m)
  | false =>
    rw [Bool.false_and, if_neg Bool.false_ne_true, Option.toList_none, List.append_nil]
    split
    · exact h
    · exact h.insert_ne hf _

/-- The rules of some keys read again, one after the other. -/
def reread (m : Machine) (keys : List Path) (t : PathMap Matcher) : PathMap Matcher :=
  keys.foldl (fun t k => t.insert k (Matcher.load m k).1) t

theorem distinct_reread (hd : t.Distinct) (m : Machine) (keys : List Path) :
    (reread m keys t).Distinct := by
  induction keys generalizing t with
  | nil => exact hd
  | cons k keys ih => exact ih (hd.insert _ _)

/-- Reading keys again leaves how the table spells them. -/
theorem key?_reread {keys : List Path} (hk : ∀ k ∈ keys, t.key? k = some k) (m : Machine)
    (file : Path) : (reread m keys t).key? file = t.key? file := by
  induction keys generalizing t with
  | nil => rfl
  | cons k keys ih =>
    have hkeys := Table.key?_insert_of_spelled (hk k (List.mem_cons_self ..))
      (Matcher.load m k).1
    refine (ih fun q hq => ?_).trans (hkeys file)
    rw [hkeys, hk q (List.mem_cons_of_mem _ hq)]

/-- A file whose key is read again gets the rules that are on disk. -/
theorem find?_reread {keys : List Path} (hk : ∀ k ∈ keys, t.key? k = some k) {m : Machine}
    {k : Path} (hkey : t.key? file = some k)
    (h : k ∈ keys ∨ t.find? file = some (Matcher.load m k).1) :
    (reread m keys t).find? file = some (Matcher.load m k).1 := by
  induction keys generalizing t with
  | nil => exact h.resolve_left List.not_mem_nil
  | cons k' keys ih =>
    have hkeys := Table.key?_insert_of_spelled (hk k' (List.mem_cons_self ..))
      (Matcher.load m k').1
    refine ih (fun q hq => by rw [hkeys, hk q (List.mem_cons_of_mem _ hq)])
      ((hkeys file).trans hkey) ?_
    rw [Table.find?_insert]
    cases hf : k' == file with
    | true =>
      -- a key that compares equal to the file is its key
      have he : some k' = some k := by
        rw [← hkey, ← hk k' (List.mem_cons_self ..)]
        exact Table.find?_congr t.spelled hf
      rw [Option.some.inj he]
      exact .inr rfl
    | false =>
      refine h.imp_left fun hm => (List.mem_cons.mp hm).resolve_left ?_
      rintro rfl
      obtain ⟨e, he, hef, hek⟩ := Table.exists_of_find? hkey
      obtain ⟨e', -, rfl⟩ := List.mem_map.mp he
      dsimp only at hef hek
      rw [← hek, hef] at hf
      cases hf

/-- Reading everything again is a refresh of every file that there is. -/
theorem Stands.reread (h : Stands t file past) (hd : t.Distinct) (m : Machine) :
    Stands (Cache.reread m t.keys t) file
      (past ++ (past.head?.map fun first => (⟨first.file, some m⟩ : Refresh)).toList) := by
  have hk : ∀ k ∈ t.keys, t.key? k = some k := fun k => hd.key?_of_mem
  have hkey := (key?_reread hk m file).trans h.key
  cases past with
  | nil =>
    have hn := Table.isSome_key? (Cache.reread m t.keys t) file
    rw [hkey] at hn
    exact ⟨by simpa using hn.symm, hkey⟩
  | cons first rest =>
    refine ⟨?_, hkey⟩
    have hin : first.file ∈ t.keys := by
      obtain ⟨e, he, -, hek⟩ := Table.exists_of_find? h.key
      obtain ⟨e', he', rfl⟩ := List.mem_map.mp he
      exact hek ▸ List.mem_map_of_mem he'
    rw [find?_reread hk h.key (.inl hin), List.head?_cons, Option.map_some, Option.toList_some,
      List.getLast?_concat]
    rfl

end Tables

/-! ## §4 The cache after a history -/

section Occasions

variable (m : Machine) (c : Cache)

theorem matchers_matcher (f : Path) :
    (matcher m f c).state.matchers = if (c.matchers.find? f).isSome then c.matchers
      else c.matchers.insert f (Matcher.load m f).1 := by
  simp only [matcher, bind_apply, get_apply, get?]
  cases hg : c.matchers.find? f with
  | some rules => rfl
  | none => simp [load, emitAll, putIfAbsent, get?, hg, put]

theorem keeps_warnMissing (f : Path) : Keeps matchers (warnMissing f) := by
  refine keeps_get_bind fun c => ?_
  split <;> rfl

theorem matchers_isIgnored (document f : Path) (isDefault : Bool) :
    (isIgnored m document f isDefault c).state.matchers =
      (matcher m f c).state.matchers := by
  simp only [isIgnored, bind_apply]
  split
  · rfl
  · cases isDefault with
    | true => rfl
    | false => exact keeps_warnMissing f _

theorem matchers_handle (e : WatchEvent) :
    (handle m e c).state.matchers = c.matchers.insert e.path
      (Refresh.rules ⟨e.path, if e.change = .deleted then none else some m⟩) := by
  unfold handle
  cases e.change <;> rfl

theorem matchers_invalidateEach (keys : List Path) :
    (invalidateEach m keys c).state.matchers = reread m keys c.matchers := by
  induction keys generalizing c with
  | nil => rfl
  | cons k keys ih => exact ih _

end Occasions

/-- The invariant of a run: keys differ, and what the cache holds for every
file is what the refreshes of the file say. -/
structure Recalls (c : Cache) (history : List Occasion) : Prop where
  distinct : c.matchers.Distinct
  stands : ∀ file, Stands c.matchers file (refreshes file history)

theorem recalls_nil : Recalls {} [] := ⟨Table.distinct_empty, fun _ => ⟨rfl, rfl⟩⟩

/-- **One action keeps the cache in step with its history.** -/
theorem Recalls.step {c : Cache} {history : List Occasion} (h : Recalls c history)
    (o : Occasion) : Recalls (o.run c).state (history ++ [o]) := by
  obtain ⟨m, action⟩ := o
  have hlook : ∀ f, (if (c.matchers.find? f).isSome then c.matchers
      else c.matchers.insert f (Matcher.load m f).1).Distinct := by
    intro f
    split
    · exact h.distinct
    · exact h.distinct.insert _ _
  cases action with
  | matcher f =>
    have hs : (Occasion.run ⟨m, .matcher f⟩ c).state.matchers = _ := matchers_matcher m c f
    refine ⟨hs ▸ hlook f, fun file => ?_⟩
    rw [hs, refreshes_concat]
    exact (h.stands file).look m f
  | isIgnored document f isDefault =>
    have hs : (Occasion.run ⟨m, .isIgnored document f isDefault⟩ c).state.matchers = _ :=
      (matchers_isIgnored m c document f isDefault).trans (matchers_matcher m c f)
    refine ⟨hs ▸ hlook f, fun file => ?_⟩
    rw [hs, refreshes_concat]
    exact (h.stands file).look m f
  | get f =>
    refine ⟨h.distinct, fun file => ?_⟩
    rw [refreshes_concat]
    exact (List.append_nil (refreshes file history)).symm ▸ h.stands file
  | invalidate f =>
    refine ⟨h.distinct.insert _ _, fun file => ?_⟩
    rw [refreshes_concat]
    exact (h.stands file).put f (some m)
  | invalidateAll =>
    have hs : (Occasion.run ⟨m, .invalidateAll⟩ c).state.matchers = _ :=
      matchers_invalidateEach m c c.matchers.keys
    refine ⟨?_, fun file => ?_⟩
    · rw [hs]
      exact distinct_reread h.distinct m _
    · rw [hs, refreshes_concat]
      exact (h.stands file).reread h.distinct m
  | handle e =>
    have hs : (Occasion.run ⟨m, .handle e⟩ c).state.matchers = _ := matchers_handle m c e
    refine ⟨?_, fun file => ?_⟩
    · rw [hs]
      exact h.distinct.insert _ _
    · rw [hs, refreshes_concat]
      exact (h.stands file).put e.path _

/-- After every history the cache holds what the refreshes say. -/
theorem recalls_after (history : List Occasion) : Recalls (after history) history := by
  induction history using List.reverseRecOn with
  | nil => exact recalls_nil
  | append_singleton history o ih =>
    rw [after_concat]
    exact ih.step o

end FormatHost.Ignore.Cache
