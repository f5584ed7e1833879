/-
FormatHost.Proofs.Run — properties of operations that are carried through
their parts.

An operation answers, changes its state and lists events. Most of what is
said about a long operation is said of each of its steps:

* §1 `Emits p x`: every event of `x`, from any state, satisfies `p`;
* §2 `Keeps f x`: `x` leaves what `f` reads of the state as it was;
* §3 `Upholds inv p x`: from states that satisfy `inv`, `x` leads to such
  states and emits what satisfies `p`;
* §4 `Mirrors f heard g x`: from states in which `f` reads the same, `x`
  answers what `g` takes for the same, emits the same of the `heard` events,
  and leads to such states again;
* §5 steps that can fail, when they have not.

The first four are closed under the ways to build operations, so a long operation
has them when its parts do and nobody unfolds the monad.
-/
import FormatHost.Event

namespace FormatHost.Run

variable {σ τ α β γ δ ε : Type}

/-- A look at the state comes before an operation and is no event. -/
theorem get_bind_apply (f : σ → Run σ α) (s : σ) : (get >>= f) s = f s s := rfl

/-! ## §1 Events -/

/-- Every event that the operation can emit satisfies `p`. -/
def Emits (p : Event → Prop) (x : Run σ α) : Prop := ∀ s, ∀ e ∈ (x s).events, p e

section Emits

variable {p q : Event → Prop} {x : Run σ α} {f : α → Run σ β}

theorem emits_of_forall_nil (h : ∀ s, (x s).events = []) : Emits p x := by
  intro s e he
  rw [h s] at he
  cases he

@[simp] theorem emits_pure (a : α) : Emits p (pure a : Run σ α) :=
  emits_of_forall_nil fun _ => rfl

@[simp] theorem emits_get : Emits p (get : Run σ σ) := emits_of_forall_nil fun _ => rfl

@[simp] theorem emits_set (s : σ) : Emits p (set s) := emits_of_forall_nil fun _ => rfl

@[simp] theorem emits_modify (f : σ → σ) : Emits p (modify f) :=
  emits_of_forall_nil fun _ => rfl

theorem emits_emit {e : Event} (h : p e) : Emits p (emit e : Run σ Unit) := by
  intro s e' he'
  obtain rfl : e' = e := by simpa using he'
  exact h

theorem emits_warn {text : String} (h : p (.log .warn text)) : Emits p (warn text : Run σ Unit) :=
  emits_emit h

theorem emits_error {text : String} (h : p (.log .error text)) :
    Emits p (error text : Run σ Unit) :=
  emits_emit h

theorem emits_emitAll {es : List Event} (h : ∀ e ∈ es, p e) : Emits p (emitAll es : Run σ Unit) :=
  fun _ => h

/-- What follows has to be checked for the values that can come out. -/
theorem Emits.bind (hx : Emits p x) (hf : ∀ a, Emits p (f a)) : Emits p (x >>= f) := by
  intro s e he
  rw [bind_apply, List.mem_append] at he
  rcases he with he | he
  · exact hx s e he
  · exact hf _ _ e he

theorem Emits.on {part : σ → τ} {put : σ → τ → σ} {y : Run τ α} (hy : Emits p y) :
    Emits p (Run.on part put y) :=
  fun s => hy (part s)

theorem Emits.mono (hx : Emits p x) (h : ∀ e, p e → q e) : Emits q x :=
  fun s e he => h e (hx s e he)

end Emits

/-! ## §2 Parts of the state -/

/-- The operation leaves what `f` reads of the state as it was. -/
def Keeps (f : σ → γ) (x : Run σ α) : Prop := ∀ s, f (x s).state = f s

section Keeps

variable {f : σ → γ} {x : Run σ α} {g : α → Run σ β}

@[simp] theorem keeps_pure (a : α) : Keeps f (pure a : Run σ α) := fun _ => rfl

@[simp] theorem keeps_get : Keeps f (get : Run σ σ) := fun _ => rfl

@[simp] theorem keeps_emit (e : Event) : Keeps f (emit e) := fun _ => rfl

theorem keeps_modify {u : σ → σ} (h : ∀ s, f (u s) = f s) : Keeps f (modify u) := h

theorem Keeps.bind (hx : Keeps f x) (hg : ∀ a, Keeps f (g a)) : Keeps f (x >>= g) := by
  intro s
  rw [bind_apply]
  exact (hg _ _).trans (hx s)

/-- What follows a look at the state has to be checked from that state
only. -/
theorem keeps_get_bind {g : σ → Run σ β} (h : ∀ s, f (g s s).state = f s) :
    Keeps f (get >>= g) := h

/-- What leaves the state as it is keeps all that is read of it. -/
theorem Keeps.of_id (h : Keeps id x) : Keeps f x := fun s => congrArg f (h s)

/-- An operation on a part keeps whatever does not read that part. -/
theorem keeps_on {part : σ → τ} {put : σ → τ → σ} (y : Run τ α)
    (h : ∀ s t, f (put s t) = f s) : Keeps f (Run.on part put y) :=
  fun s => h s _

end Keeps

/-! ## §3 Invariants -/

/-- From a state that satisfies `inv` the operation leads to such a state,
and every event on the way satisfies `p`. -/
def Upholds (inv : σ → Prop) (p : Event → Prop) (x : Run σ α) : Prop :=
  ∀ s, inv s → inv (x s).state ∧ ∀ e ∈ (x s).events, p e

section Upholds

variable {inv : σ → Prop} {p q : Event → Prop} {x : Run σ α} {g : α → Run σ β}

theorem upholds_pure (a : α) : Upholds inv p (pure a : Run σ α) := fun _ h => ⟨h, nofun⟩

/-- From one state, what follows has to be checked for the value that comes
out there only. -/
theorem Upholds.bind_at {s : σ} (hx : inv (x s).state ∧ ∀ e ∈ (x s).events, p e)
    (hg : Upholds inv p (g (x s).value)) :
    inv ((x >>= g) s).state ∧ ∀ e ∈ ((x >>= g) s).events, p e := by
  obtain ⟨hs, he⟩ := hg _ hx.1
  refine ⟨hs, fun e hm => ?_⟩
  rcases List.mem_append.mp hm with hm | hm
  · exact hx.2 e hm
  · exact he e hm

theorem Upholds.bind (hx : Upholds inv p x) (hg : ∀ a, Upholds inv p (g a)) :
    Upholds inv p (x >>= g) :=
  fun s h => Upholds.bind_at (hx s h) (hg _)

theorem Upholds.mono (hx : Upholds inv p x) (h : ∀ e, p e → q e) : Upholds inv q x :=
  fun s hs => ⟨(hx s hs).1, fun e he => h e ((hx s hs).2 e he)⟩

theorem upholds_of_forall_nil (h : ∀ s, inv s → inv (x s).state) (he : ∀ s, (x s).events = []) :
    Upholds inv p x :=
  fun s hs => ⟨h s hs, emits_of_forall_nil he s⟩

/-- An invariant that reads only what is kept is upheld. -/
theorem Emits.upholds {f : σ → γ} (hx : Emits p x) (hk : Keeps f x)
    (hi : ∀ s t, f t = f s → inv s → inv t) : Upholds inv p x :=
  fun s h => ⟨hi s _ (hk s) h, hx s⟩

/-- So it is when nothing is said about events. -/
theorem Keeps.upholds {f : σ → γ} (hk : Keeps f x) (hi : ∀ s t, f t = f s → inv s → inv t) :
    Upholds inv (fun _ => True) x :=
  fun s h => ⟨hi s _ (hk s) h, fun _ _ => trivial⟩

end Upholds

/-! ## §4 Two runs -/

/-- Two outcomes that cannot be told apart: not by what `g` takes of the
answers, by the events that are heard, or by what `f` reads of the states. -/
structure Alike (f : σ → γ) (heard : Event → Bool) (g : α → δ) (o o' : Outcome σ α) : Prop where
  value : g o.value = g o'.value
  events : o.events.filter heard = o'.events.filter heard
  state : f o.state = f o'.state

/-- From states that `f` cannot tell apart the operation has outcomes that
cannot be told apart. -/
def Mirrors (f : σ → γ) (heard : Event → Bool) (g : α → δ) (x : Run σ α) : Prop :=
  ∀ s t, f s = f t → Alike f heard g (x s) (x t)

section Mirrors

variable {f : σ → γ} {heard : Event → Bool} {x y : Run σ α} {k l : α → Run σ β} {g : α → δ}
  {g' : β → ε}

/-- What follows alike outcomes has to be alike for the answers and states
that come out. -/
theorem Alike.bind {s t : σ} (hx : Alike f heard g (x s) (y t))
    (hk : Alike f heard g' (k (x s).value (x s).state) (l (y t).value (y t).state)) :
    Alike f heard g' ((x >>= k) s) ((y >>= l) t) where
  value := hk.value
  events := by
    rw [bind_apply, bind_apply, List.filter_append, List.filter_append, hx.events, hk.events]
  state := hk.state

theorem mirrors_pure (a : α) : Mirrors f heard g (pure a) := fun _ _ h => ⟨rfl, rfl, h⟩

theorem Mirrors.bind (hx : Mirrors f heard id x) (hk : ∀ a, Mirrors f heard g' (k a)) :
    Mirrors f heard g' (x >>= k) := by
  intro s t h
  have ho := hx s t h
  refine ho.bind ?_
  rw [show (x s).value = (x t).value from ho.value]
  exact hk _ _ _ ho.state

/-- Equal states cannot be told apart. -/
theorem mirrors_id (x : Run σ α) : Mirrors id heard g x := by
  rintro s _ rfl
  exact ⟨rfl, rfl, rfl⟩

/-- An operation on a part mirrors when it does on that part, and the states
are told apart by the parts only. -/
theorem Mirrors.on {part : σ → τ} {put : σ → τ → σ} {f' : τ → ε} {y : Run τ α}
    (hy : Mirrors f' heard g y) (hpart : ∀ s t, f s = f t → f' (part s) = f' (part t))
    (hput : ∀ s t r r', f s = f t → f' r = f' r' → f (put s r) = f (put t r')) :
    Mirrors f heard g (Run.on part put y) := by
  intro s t h
  have ho := hy _ _ (hpart s t h)
  exact ⟨ho.value, ho.events, hput s t _ _ h ho.state⟩

/-- An operation that changes nothing that is read and emits nothing that is
heard. -/
structure Quiet (f : σ → γ) (heard : Event → Bool) (x : Run σ α) : Prop where
  keeps : Keeps f x
  emits : Emits (heard · = false) x

theorem quiet_pure (a : α) : Quiet f heard (pure a) := ⟨keeps_pure a, emits_pure a⟩

theorem Quiet.bind (hx : Quiet f heard x) (hk : ∀ a, Quiet f heard (k a)) :
    Quiet f heard (x >>= k) :=
  ⟨hx.keeps.bind fun a => (hk a).keeps, hx.emits.bind fun a => (hk a).emits⟩

theorem Quiet.filter_events (h : Quiet f heard x) (s : σ) : (x s).events.filter heard = [] :=
  List.filter_eq_nil_iff.mpr fun e he => by simp [h.emits s e he]

/-- After a quiet operation only what follows is heard. -/
theorem Quiet.filter_bind (h : Quiet f heard x) (k : α → Run σ β) (s : σ) :
    ((x >>= k) s).events.filter heard = (k (x s).value (x s).state).events.filter heard := by
  rw [bind_apply, List.filter_append, h.filter_events, List.nil_append]

/-- After a quiet operation things are as before, and its answer is all that
can differ. -/
theorem Quiet.mirrors (h : Quiet f heard x) (hv : ∀ s t, g (x s).value = g (x t).value) :
    Mirrors f heard g x := by
  intro s t hs
  refine ⟨hv s t, ?_, ?_⟩
  · rw [h.filter_events, h.filter_events]
  · rw [h.keeps s, h.keeps t, hs]

/-- Quiet operations at the end do not count, whatever they are given. -/
theorem Mirrors.then_quiet (hx : Mirrors f heard g x) (hk : ∀ a, Quiet f heard (k a)) :
    Mirrors f heard (fun _ => ()) (x >>= k) := by
  intro s t h
  have ho := hx s t h
  refine ho.bind ⟨rfl, ?_, ?_⟩
  · rw [(hk _).filter_events, (hk _).filter_events]
  · rw [(hk _).keeps, (hk _).keeps, ho.state]

end Mirrors

end FormatHost.Run

namespace FormatHost

/-! ## §5 Steps that can fail -/

/-- When two steps have succeeded, the first one has, and then the second. -/
theorem exists_of_bind_eq_ok {ε α β : Type} {x : Except ε α} {f : α → Except ε β} {b : β}
    (h : (x >>= f) = .ok b) : ∃ a, x = .ok a ∧ f a = .ok b := by
  cases x with
  | error e => cases h
  | ok a => exact ⟨a, rfl, h⟩

theorem eq_ok_of_toOption {ε α : Type} {x : Except ε α} {a : α} (h : x.toOption = some a) :
    x = .ok a := by
  cases x with
  | error e => cases h
  | ok b => exact congrArg Except.ok (Option.some.inj h)

theorem exists_ok_of_isSome {ε α : Type} {x : Except ε α} (h : x.toOption.isSome) :
    ∃ a, x = .ok a := by
  obtain ⟨a, ha⟩ := Option.isSome_iff_exists.mp h
  exact ⟨a, eq_ok_of_toOption ha⟩

/-- What the disk has answered is passed on as it is. -/
theorem eq_ok_of_ofIo {α : Type} {x : Except IoError α} {a : α} (h : Failure.ofIo x = .ok a) :
    x = .ok a := by
  cases x with
  | error e => cases h
  | ok b => exact congrArg Except.ok (Except.ok.inj h)

/-- A manifest is read where its text is, and is one. -/
theorem Manifest.read_eq_ok_iff {m : Machine} {p : Path} {manifest : Manifest} :
    Manifest.read m p = .ok manifest ↔
      ∃ text, m.readText p = .ok text ∧ Manifest.parse? text = some manifest := by
  constructor
  · intro h
    obtain ⟨text, ht, hm⟩ := exists_of_bind_eq_ok h
    split at hm
    · rename_i hp
      cases hm
      exact ⟨text, eq_ok_of_ofIo ht, hp⟩
    · cases hm
  · rintro ⟨text, ht, hp⟩
    simp [Manifest.read, ht, hp, Failure.ofIo, bind, Except.bind]

end FormatHost
