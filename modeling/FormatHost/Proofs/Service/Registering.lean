/-
FormatHost.Proofs.Service.Registering — having a folder registered, and
having it registered again.

A folder's registration is remembered, and so is the formatter that was
found for it; the formatter's language table is read anew each time. With
the same files and settings the second look agrees with the first: a
registration that was made is found, and where none could be made none can
be made now.

* §1 the formatter: `moduleFor_again`;
* §2 making a registration: when it succeeds, and what is there then;
* §3 `ensureRegistered_again`;
* §4 registering formats nothing.
-/
import FormatHost.Proofs.Service.Calls

namespace FormatHost

open Run

/-! ## §1 The formatter -/

namespace Service

/-- **The formatter that was found is found again**, from any state that
remembers it. -/
theorem moduleFor_again (m : Machine) (path? folder : Option Path) (settings : Settings)
    {s t : Service}
    (h : t.resolver = (moduleFor m path? folder settings s).state.resolver) :
    (moduleFor m path? folder settings t).value = (moduleFor m path? folder settings s).value := by
  cases path? with
  | some path =>
    refine Resolver.resolve_value_of_cached m _ _ ?_
    rw [h]
    exact Resolver.cached?_resolve m _ _ path
  | none =>
    refine Resolver.resolveGlobal_value_of_global m _ _ ?_
    rw [h]
    exact Resolver.global_resolveGlobal m _ _

end Service

/-! ## §2 Making a registration -/

namespace Config

/-- What looking up a project's options answers does not depend on what
the service remembers. -/
theorem loadProject_value_eq {σ : Type} (h : Handle) (m : Machine) (path? : Option Path)
    (settings : Settings) (folder : Option Path) (t u : σ) :
    (loadProject h m path? settings folder t).value =
      (loadProject h m path? settings folder u).value := by
  cases path? with
  | none => rfl
  | some path =>
    simp only [loadProject, bind_apply, discover_value]
    cases lookUp h m (some path) settings folder <;> rfl

end Config

namespace Service

section Making

variable (m : Machine) (h : Handle) (d? : Option Document) (settings : Settings)
  (folder : Option Path)

theorem registrationPlugins_value_eq (t u : Service) :
    (registrationPlugins m h d? settings folder t).value =
      (registrationPlugins m h d? settings folder u).value := by
  unfold registrationPlugins
  cases d?.bind Document.path? with
  | none => rfl
  | some path =>
    dsimp only
    split
    · simp only [bind_apply, Config.loadProject_value_eq h m (some path) settings folder t u]
      cases (Config.loadProject h m (some path) settings folder u).value <;> rfl
    · rfl

/-- A registration is made when the language table can be read, whatever
the service remembers. -/
theorem registerHandle_isSome (t : Service) :
    (registerHandle m h folder d? settings t).value.isSome =
      (h.formatter.supportInfo m (registrationPlugins m h d? settings folder t).value).isOk := by
  simp only [registerHandle, bind_apply, Handle.supportInfo, pure_apply]
  cases h.formatter.supportInfo m (registrationPlugins m h d? settings folder t).value <;> rfl

theorem registerHandle_isSome_eq (t u : Service) :
    (registerHandle m h folder d? settings t).value.isSome =
      (registerHandle m h folder d? settings u).value.isSome := by
  rw [registerHandle_isSome, registerHandle_isSome,
    registrationPlugins_value_eq m h d? settings folder t u]

/-- A registration that was made is that of its folder; if none was made
the registrations are as before. -/
theorem registerHandle_registrations (t : Service) :
    let o := registerHandle m h folder d? settings t
    match o.value with
    | some registration => o.state.registrations.get? folder = some registration
    | none => o.state.registrations = t.registrations := by
  have hk := keeps_registrationPlugins m h d? settings folder (f := Service.registrations)
    (fun _ _ => rfl) t
  simp only [registerHandle, bind_apply, Handle.supportInfo, pure_apply]
  cases h.formatter.supportInfo m (registrationPlugins m h d? settings folder t).value with
  | error e => exact hk
  | ok info =>
    exact (Registrations.register_get? folder _ _ _ folder).trans (if_pos (BEq.refl folder))

end Making

/-! ## §3 Registering again -/

section Again

variable (m : Machine) (folder : Option Path) (d? : Option Document)

theorem ensureRegistered_of_registered {s : Service} {registration : Registration}
    (h : s.registrations.get? folder = some registration) :
    ensureRegistered m folder d? s = ⟨some registration, s, []⟩ := by
  simp only [ensureRegistered, bind_apply, get_apply, h]
  rfl

/-- Without a registration it takes a formatter to make one. -/
theorem ensureRegistered_of_unregistered {s : Service}
    (h : s.registrations.get? folder = none) :
    let found := moduleFor m folder folder s.settings s
    (ensureRegistered m folder d? s).value =
      found.value.bind fun handle =>
        (registerHandle m handle folder d? s.settings found.state).value := by
  simp only [ensureRegistered, bind_apply, get_apply, h]
  cases (moduleFor m folder folder s.settings s).value <;> rfl

/-- What the first look leaves: the formatter that was found, and the
registration if it was made. -/
theorem ensureRegistered_state {s : Service} (h : s.registrations.get? folder = none) :
    let found := moduleFor m folder folder s.settings s
    let o := ensureRegistered m folder d? s
    o.state.resolver = found.state.resolver ∧
      match o.value with
      | some registration => o.state.registrations.get? folder = some registration
      | none => o.state.registrations = s.registrations := by
  have hreg := keeps_moduleFor (f := Service.registrations) (fun _ _ => rfl) m folder folder
    s.settings s
  simp only [ensureRegistered, bind_apply, get_apply, h]
  cases (moduleFor m folder folder s.settings s).value with
  | none => exact ⟨rfl, hreg⟩
  | some handle =>
    have hres := keeps_registerHandle m handle d? s.settings folder (f := Service.resolver)
      (fun _ _ => rfl) (fun _ _ => rfl) (moduleFor m folder folder s.settings s).state
    have hmade := registerHandle_registrations m handle d? s.settings folder
      (moduleFor m folder folder s.settings s).state
    rw [hreg] at hmade
    exact ⟨hres, hmade⟩

/-- **The second look answers as the first one did**, from any state with
the settings of the first and what it left of registrations and
formatters. -/
theorem ensureRegistered_again {s t : Service}
    (hregistrations : t.registrations = (ensureRegistered m folder d? s).state.registrations)
    (hresolver : t.resolver = (ensureRegistered m folder d? s).state.resolver)
    (hsettings : t.settings = s.settings) :
    (ensureRegistered m folder d? t).value = (ensureRegistered m folder d? s).value := by
  cases hs : s.registrations.get? folder with
  | some registration =>
    have ho := ensureRegistered_of_registered m folder d? hs
    rw [ho] at hregistrations ⊢
    rw [ensureRegistered_of_registered m folder d? (by rw [hregistrations, hs])]
  | none =>
    obtain ⟨hfound, hleft⟩ := ensureRegistered_state m folder d? hs
    rw [← hregistrations] at hleft
    cases hv : (ensureRegistered m folder d? s).value with
    | some registration =>
      rw [hv] at hleft
      rw [ensureRegistered_of_registered m folder d? hleft]
    | none =>
      -- nothing was registered, so the second look starts where the first one did
      rw [hv] at hleft
      have hagain := moduleFor_again m folder folder s.settings (hresolver.trans hfound)
      rw [ensureRegistered_of_unregistered m folder d? hs] at hv
      rw [ensureRegistered_of_unregistered m folder d? (by rw [hleft, hs]), hsettings, hagain]
      cases hm : (moduleFor m folder folder s.settings s).value with
      | none => rfl
      | some handle =>
        rw [hm] at hv
        have hsome := registerHandle_isSome_eq m handle d? s.settings folder
          (moduleFor m folder folder s.settings t).state
          (moduleFor m folder folder s.settings s).state
        rw [Option.bind_some] at hv ⊢
        rw [hv] at hsome
        exact Option.isNone_iff_eq_none.mp (Option.isSome_eq_false_iff.mp hsome)

end Again

/-! ## §4 Calls -/

theorem neverFormats_of_asks {σ α : Type} {x : Run σ α} {origin : Origin} {path? : Option Path}
    (h : Emits (Event.Asks origin (Call.OfRegistering path?)) x) : NeverFormats x :=
  h.mono fun e he => by
    cases e with
    | call o c =>
      cases c with
      | format text options => exact he.2.elim
      | _ => rfl
    | _ => rfl

/-- **Registering formats nothing.** -/
theorem neverFormats_ensureRegistered (m : Machine) (folder : Option Path)
    (d? : Option Document) : NeverFormats (ensureRegistered m folder d?) := by
  unfold ensureRegistered
  refine emits_get.bind fun s => ?_
  split
  · exact emits_pure _
  · refine (neverFormats_of_isLookup (emits_moduleFor m _ _ _)).bind fun handle? => ?_
    split
    · exact neverFormats_of_asks (asks_registerHandle m _ d? s.settings folder)
    · exact Emits.bind (emits_error (by rfl)) fun _ =>
        (emits_showStatus (by rfl)).bind fun _ => emits_pure _

end Service
end FormatHost
