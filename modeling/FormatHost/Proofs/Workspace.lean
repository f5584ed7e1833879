/-
FormatHost.Proofs.Workspace — which open folder a path lies in.

Of the folders that contain a path the deepest is taken, and of several
spellings of one folder the last. So two answers that compare equal are one
text (`folderFor_unique`): what follows from a document's folder does not
depend on the document that led to it.

The folders that contain one path are nested in each other, since they are
all beginnings of it. So the deepest is the innermost, and up to its spelling
there is one such folder. Which folders are open is told from the changes, by
the last one that says something of a folder.

* §1 the deepest of some folders;
* §2 spellings: `folderFor_unique`;
* §3 the innermost folder: `startsWith_folderFor`, `folderFor_congr`;
* §4 changes: `contains_after`;
* §5 `folderFor_innermost`.
-/
import FormatHost.Proofs.Path.Nesting
import FormatHost.Workspace
import Mathlib.Data.List.Induction

namespace FormatHost.Workspace

/-! ## §1 The deepest folder -/

/-- All that comes after the folder that is taken is less deep. -/
theorem foldl_deeper_split (f : Path) (fs : List Path) :
    ∃ before after, f :: fs = before ++ fs.foldl deeper f :: after ∧
      ∀ g ∈ after, g.components.length < (fs.foldl deeper f).components.length := by
  induction fs generalizing f with
  | nil => exact ⟨[], [], rfl, nofun⟩
  | cons g fs ih =>
    obtain ⟨before, after, hs, ha⟩ := ih (deeper f g)
    rw [List.foldl_cons]
    by_cases hl : g.components.length < f.components.length
    · rw [show deeper f g = f from if_pos hl] at hs ha ⊢
      generalize fs.foldl deeper f = taken at hs ha
      cases before with
      | nil =>
        obtain ⟨rfl, rfl⟩ := List.cons.inj hs
        refine ⟨[], g :: fs, rfl, fun x hx => ?_⟩
        rcases List.mem_cons.mp hx with rfl | hx
        · exact hl
        · exact ha x hx
      | cons first before =>
        obtain ⟨rfl, rfl⟩ := List.cons.inj hs
        exact ⟨f :: g :: before, after, rfl, ha⟩
    · rw [show deeper f g = g from if_neg hl] at hs ha ⊢
      exact ⟨f :: before, after, by rw [hs]; rfl, ha⟩

/-- No folder is deeper than the deepest. -/
theorem length_le_foldl_deeper (f : Path) (fs : List Path) :
    ∀ g ∈ f :: fs, g.components.length ≤ (fs.foldl deeper f).components.length := by
  induction fs generalizing f with
  | nil =>
    intro g hg
    obtain rfl := List.mem_singleton.mp hg
    exact Nat.le_refl _
  | cons h fs ih =>
    have hmax : f.components.length ≤ (deeper f h).components.length ∧
        h.components.length ≤ (deeper f h).components.length := by
      unfold deeper
      split <;> omega
    intro g hg
    have hd := ih (deeper f h) (deeper f h) (List.mem_cons_self ..)
    rw [List.foldl_cons]
    rcases List.mem_cons.mp hg with rfl | hg
    · exact Nat.le_trans hmax.1 hd
    · rcases List.mem_cons.mp hg with rfl | hg
      · exact Nat.le_trans hmax.2 hd
      · exact ih (deeper f h) g (List.mem_cons_of_mem _ hg)

/-! ## §2 Spellings -/

variable {w : Workspace} {p f : Path}

/-- The innermost folder is the deepest of those that contain the path. -/
theorem exists_containing_of_folderFor (h : w.folderFor p = some f) :
    ∃ g gs, (w.folders.filter fun f => p.startsWith f) = g :: gs ∧ gs.foldl deeper g = f := by
  unfold folderFor at h
  cases hc : w.folders.filter fun f => p.startsWith f with
  | nil =>
    rw [hc] at h
    cases h
  | cons g gs =>
    rw [hc] at h
    exact ⟨g, gs, rfl, Option.some.inj h⟩

/-- Among the folders that contain the path, all that come after the
innermost one are less deep. -/
theorem split_of_folderFor (h : w.folderFor p = some f) :
    ∃ before after, w.folders.filter (fun f => p.startsWith f) = before ++ f :: after ∧
      ∀ g ∈ after, g.components.length < f.components.length := by
  obtain ⟨g, gs, hc, rfl⟩ := exists_containing_of_folderFor h
  rw [hc]
  exact foldl_deeper_split g gs

/-- The innermost folder is one of the open folders that contain the path. -/
theorem mem_of_folderFor (h : w.folderFor p = some f) :
    f ∈ w.folders ∧ p.startsWith f = true := by
  obtain ⟨before, after, hs, -⟩ := split_of_folderFor h
  have hm : f ∈ w.folders.filter fun f => p.startsWith f := by
    rw [hs]
    simp
  exact List.mem_filter.mp hm

theorem startsWith_of_folderFor (h : w.folderFor p = some f) : p.startsWith f = true :=
  (mem_of_folderFor h).2

/-- The innermost folder is the last spelling of it among all folders. -/
theorem getLast?_of_folderFor (h : w.folderFor p = some f) :
    (w.folders.filter (· == f)).getLast? = some f := by
  obtain ⟨before, after, hs, ha⟩ := split_of_folderFor h
  -- every spelling of the folder contains the path
  have hall : w.folders.filter (· == f) =
      (w.folders.filter fun f => p.startsWith f).filter (· == f) := by
    rw [List.filter_filter]
    refine List.filter_congr fun g _ => ?_
    cases hg : g == f with
    | false => rfl
    | true =>
      rw [Path.startsWith_base_congr hg, startsWith_of_folderFor h]
      rfl
  have hn : after.filter (· == f) = [] := by
    refine List.filter_eq_nil_iff.mpr fun x hx he => ?_
    have hlt := ha x hx
    rw [Path.beq_iff.mp he] at hlt
    exact Nat.lt_irrefl _ hlt
  have hf : (f :: after).filter (· == f) = [f] := by
    rw [List.filter_cons, hn, if_pos (Path.beq_refl f)]
  rw [hall, hs, List.filter_append, hf, List.getLast?_append]
  rfl

/-- **One folder is answered in one spelling.** -/
theorem folderFor_unique {p' f' : Path} (h : w.folderFor p = some f)
    (h' : w.folderFor p' = some f') (he : (f == f') = true) : f = f' := by
  have hl := getLast?_of_folderFor h
  have hc : w.folders.filter (· == f) = w.folders.filter (· == f') :=
    List.filter_congr fun g _ => Path.beq_congr he g
  rw [hc, getLast?_of_folderFor h'] at hl
  exact (Option.some.inj hl).symm

/-! ## §3 The innermost folder -/

/-- A path has a folder when an open folder contains it. -/
theorem isSome_folderFor_iff :
    (w.folderFor p).isSome = true ↔ ∃ f ∈ w.folders, p.startsWith f = true := by
  constructor
  · intro h
    obtain ⟨f, hf⟩ := Option.isSome_iff_exists.mp h
    exact ⟨f, mem_of_folderFor hf⟩
  · rintro ⟨f, hf⟩
    have hm : f ∈ w.folders.filter fun f => p.startsWith f := List.mem_filter.mpr hf
    unfold folderFor
    cases hc : w.folders.filter fun f => p.startsWith f with
    | nil =>
      rw [hc] at hm
      cases hm
    | cons g gs => rfl

theorem folderFor_singleton (f p : Path) :
    (⟨[f]⟩ : Workspace).folderFor p = if p.startsWith f = true then some f else none := by
  unfold folderFor
  cases h : p.startsWith f with
  | true =>
    rw [List.filter_cons_of_pos h]
    rfl
  | false =>
    rw [List.filter_cons_of_neg (by simp [h])]
    rfl

/-- Of the open folders that contain a path none is deeper than its
innermost one. -/
theorem length_le_folderFor (h : w.folderFor p = some f) {g : Path} (hg : g ∈ w.folders)
    (hp : p.startsWith g = true) : g.components.length ≤ f.components.length := by
  have hm : g ∈ w.folders.filter fun f => p.startsWith f := List.mem_filter.mpr ⟨hg, hp⟩
  obtain ⟨first, rest, hc, rfl⟩ := exists_containing_of_folderFor h
  rw [hc] at hm
  exact length_le_foldl_deeper first rest g hm

/-- **The innermost folder lies at or below every open folder that contains
the path.** -/
theorem startsWith_folderFor (h : w.folderFor p = some f) {g : Path} (hg : g ∈ w.folders)
    (hp : p.startsWith g = true) : f.startsWith g = true :=
  Path.startsWith_of_length_le (startsWith_of_folderFor h) hp (length_le_folderFor h hg hp)

/-- Where two workspaces have the same folders, in whatever spelling, the
innermost folder of the one lies at or below that of the other. -/
theorem exists_folderFor_above {w' : Workspace}
    (h : ∀ f, w.folders.contains f = w'.folders.contains f) (hf : w.folderFor p = some f) :
    ∃ f', w'.folderFor p = some f' ∧ f'.startsWith f = true := by
  obtain ⟨hm, hp⟩ := mem_of_folderFor hf
  have hc : w.folders.contains f = true :=
    List.contains_iff_exists_mem_beq.mpr ⟨f, hm, Path.beq_refl f⟩
  rw [h] at hc
  obtain ⟨g, hg, hfg⟩ := List.contains_iff_exists_mem_beq.mp hc
  rw [Path.startsWith_base_congr hfg] at hp
  obtain ⟨f', hf'⟩ := Option.isSome_iff_exists.mp (isSome_folderFor_iff.mpr ⟨g, hg, hp⟩)
  refine ⟨f', hf', ?_⟩
  rw [Path.startsWith_base_congr hfg]
  exact startsWith_folderFor hf' hg hp

/-- **The innermost folder depends only on which folders are open**, not on
their order, on their spelling or on how often they are listed. -/
theorem folderFor_congr {w' : Workspace}
    (h : ∀ f, w.folders.contains f = w'.folders.contains f) (p : Path) :
    (w.folderFor p == w'.folderFor p) = true := by
  cases hf : w.folderFor p with
  | none =>
    cases hf' : w'.folderFor p with
    | none => rfl
    | some f' =>
      obtain ⟨f, hf₁, -⟩ := exists_folderFor_above (fun f => (h f).symm) hf'
      rw [hf] at hf₁
      cases hf₁
  | some f =>
    obtain ⟨f', hf', hbelow⟩ := exists_folderFor_above h hf
    obtain ⟨f₁, hf₁, habove⟩ := exists_folderFor_above (fun f => (h f).symm) hf'
    obtain rfl : f = f₁ := Option.some.inj (hf.symm.trans hf₁)
    rw [hf']
    exact Path.beq_of_startsWith habove hbelow

/-! ## §4 Changes -/

/-- A change to which folders are open. -/
inductive Change
  /-- All folders are replaced by a list. -/
  | start (folders : List Path)
  | add (folder : Path)
  | remove (folder : Path)

def Change.apply : Change → Workspace → Workspace
  | .start folders, _ => ⟨folders⟩
  | .add folder, w => w.add folder
  | .remove folder, w => w.remove folder

/-- The workspace after changes, at first without folders. -/
def after (changes : List Change) : Workspace := changes.foldl (fun w c => c.apply w) {}

/-- Whether a change opens or closes a folder, if it says anything of it. -/
def Change.says? : Change → Path → Option Bool
  | .start folders, f => some (folders.contains f)
  | .add g, f => if f == g then some true else none
  | .remove g, f => if f == g then some false else none

/-- Whether a folder is open after changes: what the last of them says that
says something of it. -/
def isOpen (changes : List Change) (f : Path) : Bool :=
  (changes.reverse.findSome? (·.says? f)).getD false

theorem isOpen_concat (changes : List Change) (c : Change) (f : Path) :
    isOpen (changes ++ [c]) f = (c.says? f).getD (isOpen changes f) := by
  unfold isOpen
  rw [List.reverse_append, List.reverse_singleton, List.singleton_append, List.findSome?_cons]
  cases c.says? f <;> rfl

theorem after_concat (changes : List Change) (c : Change) :
    after (changes ++ [c]) = c.apply (after changes) := by
  unfold after
  rw [List.foldl_append]
  rfl

theorem contains_add (w : Workspace) (g f : Path) :
    (w.add g).folders.contains f = (w.folders.contains f || f == g) := by
  unfold add
  split
  · rename_i hg
    -- the folder is there already, in this spelling or another
    cases hf : f == g with
    | false => rw [Bool.or_false]
    | true =>
      obtain ⟨k, hk, hgk⟩ := List.contains_iff_exists_mem_beq.mp hg
      rw [Bool.or_true]
      exact List.contains_iff_exists_mem_beq.mpr ⟨k, hk, BEq.trans hf hgk⟩
  · rw [List.contains_append, List.contains_cons, List.contains_nil, Bool.or_false]

theorem contains_remove (w : Workspace) (g f : Path) :
    (w.remove g).folders.contains f = (w.folders.contains f && !(f == g)) := by
  rw [Bool.eq_iff_iff, Bool.and_eq_true, List.contains_iff_exists_mem_beq,
    List.contains_iff_exists_mem_beq]
  constructor
  · rintro ⟨k, hk, hfk⟩
    obtain ⟨hk, hkg⟩ := List.mem_filter.mp hk
    exact ⟨⟨k, hk, hfk⟩, by rw [BEq.congr_left hfk]; exact hkg⟩
  · rintro ⟨⟨k, hk, hfk⟩, hfg⟩
    refine ⟨k, List.mem_filter.mpr ⟨hk, ?_⟩, hfk⟩
    rw [← BEq.congr_left hfk]
    exact hfg

/-- A change settles the folders that it says something of and leaves the
others. -/
theorem Change.contains_apply (c : Change) (w : Workspace) (f : Path) :
    (c.apply w).folders.contains f = (c.says? f).getD (w.folders.contains f) := by
  cases c with
  | start folders => rfl
  | add g =>
    simp only [apply, says?, contains_add]
    cases f == g <;> simp
  | remove g =>
    simp only [apply, says?, contains_remove]
    cases f == g <;> simp

/-- **The folders after changes are those that the changes leave open.** -/
theorem contains_after (changes : List Change) (f : Path) :
    (after changes).folders.contains f = isOpen changes f := by
  induction changes using List.reverseRecOn with
  | nil => rfl
  | append_singleton changes c ih => rw [after_concat, c.contains_apply, ih, isOpen_concat]

/-! ## §5 Folders of paths -/

/-- **Every path lies in the innermost of the open folders that contain it.**
After any changes the folders are those that the changes leave open. A path
has a folder exactly when one of them contains it. Its folder is one of them,
contains it, and lies at or below all others that do. Changes that leave the
same folders open, in whatever order, spelling and repetition, give every
path the same folder up to its spelling. -/
theorem folderFor_innermost (changes : List Change) (p : Path) :
    let w := after changes
    (∀ f, w.folders.contains f = isOpen changes f) ∧
    ((w.folderFor p).isSome = true ↔ ∃ f ∈ w.folders, p.startsWith f = true) ∧
    (∀ f, w.folderFor p = some f → f ∈ w.folders ∧ p.startsWith f = true ∧
      ∀ g ∈ w.folders, p.startsWith g = true → f.startsWith g = true) ∧
    ∀ changes', (∀ f, isOpen changes f = isOpen changes' f) →
      (w.folderFor p == (after changes').folderFor p) = true := by
  intro w
  refine ⟨contains_after changes, isSome_folderFor_iff, fun f hf => ?_, fun changes' hsame => ?_⟩
  · obtain ⟨hm, hp⟩ := mem_of_folderFor hf
    exact ⟨hm, hp, fun g hg hpg => startsWith_folderFor hf hg hpg⟩
  · have hfolders : ∀ f, w.folders.contains f = (after changes').folders.contains f := by
      intro f
      rw [contains_after, contains_after, hsame]
    exact folderFor_congr hfolders p

/-- Two histories that leave the same two folders open: the answers compare
equal, and each is in the spelling that its history left. -/
example :
    let listed := after [.start [⟨"/p/a/"⟩, ⟨"/p"⟩, ⟨"/p/./a"⟩]]
    let added := after [.add ⟨"/p/a"⟩, .add ⟨"/q"⟩, .add ⟨"/p"⟩, .add ⟨"/p//a"⟩, .remove ⟨"/q/"⟩]
    listed.folderFor ⟨"/p/a/x.ts"⟩ = some ⟨"/p/./a"⟩ ∧
      added.folderFor ⟨"/p/a/x.ts"⟩ = some ⟨"/p/a"⟩ := by
  decide

end FormatHost.Workspace
