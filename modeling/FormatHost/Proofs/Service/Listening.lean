/-
FormatHost.Proofs.Service.Listening — from an event to its handlers.

The service holds a subscription for manifests, one for configuration files
and one for each ignore file it has come across. An event waits in all
subscriptions that accept its path, until each of them follows it.

* §1 `Listens`: the subscriptions are live, and what waits in them;
* §2 what following an event makes of the rules, in one subscription and in
  all;
* §3 `deliver_rules`: after a delivery nothing waits, and the rules of an
  ignore file that is listened to are those that the event tells of.
-/
import FormatHost.Proofs.Ignore.Lookup
import FormatHost.Proofs.Service.Watching
import FormatHost.Proofs.Watch

namespace FormatHost.Service

open Run

/-! ## §1 Subscriptions -/

/-- A subscription of the service, for what it listens for. It takes a file
that the service has noted if it is for ignore files; what waits in it was
accepted, and `waiting` allows it. -/
structure Sound (waiting : WatchEvent → Prop) (files : List Path) (l : Listener)
    (sub : Subscription) : Prop where
  noted : l = .ignoreFile → ∃ f ∈ files, sub.pattern = .path f
  accepted : ∀ e ∈ sub.queue, sub.pattern.accepts e.path = true
  waits : ∀ e ∈ sub.queue, waiting e

/-- The service listens to the watcher: its subscriptions are live and have
numbers of their own, and each ignore file it has noted has one. -/
structure Listens (waiting : Nat → WatchEvent → Prop) (s : Service) (w : Watcher) : Prop where
  watcher : s.watcher = some w
  numbered : w.Numbered
  distinct : ∀ l ∈ s.listeners, ∀ l' ∈ s.listeners, l.1 = l'.1 → l = l'
  live : ∀ l ∈ s.listeners, ∃ sub, w.find? l.1 = some sub ∧
    Sound (waiting l.1) s.watchedIgnoreFiles l.2 sub
  files : ∀ f ∈ s.watchedIgnoreFiles, ∃ l ∈ s.listeners, l.2 = .ignoreFile ∧
    ∃ sub, w.find? l.1 = some sub ∧ sub.pattern = .path f

/-- An event that waits for rules is for a file that was noted. -/
theorem Sound.contains {waiting : WatchEvent → Prop} {files : List Path} {sub : Subscription}
    (h : Sound waiting files .ignoreFile sub) {e : WatchEvent} (he : e ∈ sub.queue) {file : Path}
    (hp : (e.path == file) = true) : files.contains file = true := by
  obtain ⟨f, hf, hpattern⟩ := h.noted rfl
  have ha := h.accepted e he
  rw [hpattern] at ha
  exact List.contains_iff_exists_mem_beq.mpr ⟨f, hf, BEq.trans (BEq.symm hp) (BEq.symm ha)⟩

namespace Listens

variable {waiting waiting' : Nat → WatchEvent → Prop} {s t : Service} {w : Watcher}

theorem congr (h : Listens waiting s w) (hw : t.watcher = s.watcher)
    (hl : t.listeners = s.listeners) (hf : t.watchedIgnoreFiles = s.watchedIgnoreFiles) :
    Listens waiting t w where
  watcher := hw.trans h.watcher
  numbered := h.numbered
  distinct := hl ▸ h.distinct
  live := by
    rw [hl, hf]
    exact h.live
  files := by
    rw [hl, hf]
    exact h.files

theorem lt_nextId (h : Listens waiting s w) {l : Nat × Listener} (hl : l ∈ s.listeners) :
    l.1 < w.nextId := by
  obtain ⟨sub, hs, -⟩ := h.live l hl
  exact h.numbered.lt_of_find? hs

theorem mono (h : Listens waiting s w)
    (hw : ∀ l ∈ s.listeners, ∀ e, waiting l.1 e → waiting' l.1 e) : Listens waiting' s w where
  watcher := h.watcher
  numbered := h.numbered
  distinct := h.distinct
  live := by
    intro l hl
    obtain ⟨sub, hs, hsound⟩ := h.live l hl
    exact ⟨sub, hs, hsound.noted, hsound.accepted, fun e he => hw l hl e (hsound.waits e he)⟩
  files := h.files

/-- A new subscription: for an ignore file, which is noted, or for something
else. -/
theorem watch (h : Listens waiting s w) (pattern : WatchPattern) (l : Listener)
    (files : List Path) (hl : l = .ignoreFile → ∃ f ∈ files, pattern = .path f)
    (hf : ∀ f ∈ files, l = .ignoreFile ∧ pattern = .path f) :
    Listens waiting { s with
      watcher := some (w.watch pattern).2, listeners := s.listeners ++ [(w.nextId, l)]
      watchedIgnoreFiles := s.watchedIgnoreFiles ++ files } (w.watch pattern).2 := by
  -- numbers that are in use keep their subscriptions
  have hold : ∀ l ∈ s.listeners, (w.watch pattern).2.find? l.1 = w.find? l.1 := by
    intro l hl
    rw [h.numbered.find?_watch, if_neg (Nat.ne_of_lt (h.lt_nextId hl))]
  have hnew : (w.watch pattern).2.find? w.nextId = some ⟨w.nextId, pattern, []⟩ := by
    rw [h.numbered.find?_watch, if_pos rfl]
  refine ⟨rfl, h.numbered.watch pattern, ?_, ?_, ?_⟩
  · intro l₁ h₁ l₂ h₂ he
    rcases List.mem_append.mp h₁ with h₁ | h₁ <;> rcases List.mem_append.mp h₂ with h₂ | h₂
    · exact h.distinct l₁ h₁ l₂ h₂ he
    · rw [List.mem_singleton.mp h₂] at he
      exact absurd he (Nat.ne_of_lt (h.lt_nextId h₁))
    · rw [List.mem_singleton.mp h₁] at he
      exact absurd he.symm (Nat.ne_of_lt (h.lt_nextId h₂))
    · rw [List.mem_singleton.mp h₁, List.mem_singleton.mp h₂]
  · intro l' hl'
    rcases List.mem_append.mp hl' with hl' | hl'
    · obtain ⟨sub, hs, hsound⟩ := h.live l' hl'
      refine ⟨sub, (hold l' hl').trans hs, fun hk => ?_, hsound.accepted, hsound.waits⟩
      obtain ⟨f, hf, hp⟩ := hsound.noted hk
      exact ⟨f, List.mem_append_left _ hf, hp⟩
    · rw [List.mem_singleton.mp hl']
      refine ⟨_, hnew, fun hk => ?_, fun e he => absurd he List.not_mem_nil,
        fun e he => absurd he List.not_mem_nil⟩
      obtain ⟨f, hf, hp⟩ := hl hk
      exact ⟨f, List.mem_append_right _ hf, hp⟩
  · intro f hfile
    rcases List.mem_append.mp hfile with hfile | hfile
    · obtain ⟨l', hl', hk, sub, hs, hp⟩ := h.files f hfile
      exact ⟨l', List.mem_append_left _ hl', hk, sub, (hold l' hl').trans hs, hp⟩
    · obtain ⟨hk, hp⟩ := hf f hfile
      exact ⟨_, List.mem_append_right _ (List.mem_singleton_self _), hk, _, hnew, hp⟩

/-- An event waits where its path is accepted. -/
theorem emit (h : Listens waiting s w) (e : WatchEvent)
    (hw : ∀ id e', waiting id e' → waiting' id e') (he : ∀ l ∈ s.listeners, waiting' l.1 e) :
    Listens waiting' { s with watcher := some (w.emit e).2 } (w.emit e).2 := by
  refine ⟨rfl, h.numbered.emit e, h.distinct, ?_, ?_⟩
  · intro l hl
    obtain ⟨sub, hs, hsound⟩ := h.live l hl
    refine ⟨sub.receive e, by rw [Watcher.find?_emit, hs]; rfl, ?_, fun e' he' => ?_,
      fun e' he' => ?_⟩
    · rw [Subscription.receive_pattern]
      exact hsound.noted
    · rw [Subscription.receive_pattern]
      rcases Subscription.mem_queue_receive.mp he' with he' | ⟨rfl, ha⟩
      · exact hsound.accepted e' he'
      · exact ha
    · rcases Subscription.mem_queue_receive.mp he' with he' | ⟨rfl, -⟩
      · exact hw _ _ (hsound.waits e' he')
      · exact he l hl
  · intro f hf
    obtain ⟨l, hl, hk, sub, hs, hp⟩ := h.files f hf
    refine ⟨l, hl, hk, _, by rw [Watcher.find?_emit, hs]; rfl, ?_⟩
    rw [Subscription.receive_pattern, hp]

/-- Taking the events of a subscription leaves those of the others. -/
theorem take (h : Listens waiting s w) (id : Nat)
    (hw : ∀ l ∈ s.listeners, l.1 ≠ id → ∀ e, waiting l.1 e → waiting' l.1 e) :
    Listens waiting' { s with watcher := some (w.setQueue id []) } (w.setQueue id []) := by
  refine ⟨rfl, h.numbered.setQueue id [], h.distinct, ?_, ?_⟩
  · intro l hl
    obtain ⟨sub, hs, hsound⟩ := h.live l hl
    by_cases hid : l.1 = id
    · refine ⟨{ sub with queue := [] }, ?_, hsound.noted, fun e he => absurd he List.not_mem_nil,
        fun e he => absurd he List.not_mem_nil⟩
      rw [Watcher.find?_setQueue, hs, Option.map_some, if_pos hid]
    · refine ⟨sub, ?_, hsound.noted, hsound.accepted,
        fun e he => hw l hl hid e (hsound.waits e he)⟩
      rw [Watcher.find?_setQueue, hs, Option.map_some, if_neg hid]
  · intro f hf
    obtain ⟨l, hl, hk, sub, hs, hp⟩ := h.files f hf
    refine ⟨l, hl, hk, _, by rw [Watcher.find?_setQueue, hs]; rfl, ?_⟩
    split <;> exact hp

end Listens

/-! ## §2 Following -/

/-- What following one event, possibly several times, makes of the rules. -/
theorem get?_handleEach (m : Machine) (l : Listener) {e : WatchEvent} {es : List WatchEvent}
    (he : ∀ e' ∈ es, e' = e) (t : Service) (file : Path) :
    (handleEach m l es t).state.ignore.get? file =
      if l = .ignoreFile ∧ es ≠ [] ∧ (e.path == file) = true then some (Ignore.Cache.told m e)
      else t.ignore.get? file := by
  induction es generalizing t with
  | nil => simp [handleEach]
  | cons e' es ih =>
    obtain rfl := he e' (List.mem_cons_self ..)
    have hrest := ih (fun e'' hm => he e'' (List.mem_cons_of_mem _ hm)) (handle m l e' t).state
    rw [show (handleEach m l (e' :: es) t).state =
      (handleEach m l es (handle m l e' t).state).state from rfl, hrest]
    cases l with
    | manifests =>
      have hk := keeps_onManifestEvent (f := Service.ignore) (fun _ _ => rfl) (fun _ _ => rfl)
        (fun _ _ => rfl) e' t
      simp [handle, hk]
    | configFiles =>
      have hk := keeps_resetRegistration (f := Service.ignore) (fun _ _ => rfl) (fun _ _ => rfl)
        e'.path t
      simp [handle, onConfigFileEvent, hk]
    | ignoreFile =>
      have hone : (handle m .ignoreFile e' t).state.ignore.get? file =
          if e'.path == file then some (Ignore.Cache.told m e') else t.ignore.get? file :=
        Ignore.Cache.get?_handle m e' t.ignore file
      rw [hone]
      cases e'.path == file <;> simp

theorem takeEvents_eq {t : Service} {w : Watcher} (hw : t.watcher = some w) (id : Nat) :
    takeEvents id t = ⟨((w.find? id).map (·.queue)).getD [],
      { t with watcher := some (w.setQueue id []) }, []⟩ := by
  unfold takeEvents
  rw [hw]
  rfl

/-- The event waits for one of the listeners to ignore files. -/
def Waits (w : Watcher) (e : WatchEvent) (ls : List (Nat × Listener)) : Prop :=
  ∃ l ∈ ls, l.2 = .ignoreFile ∧ ∃ sub, w.find? l.1 = some sub ∧ e ∈ sub.queue

/-- While an event is being followed: it is all that waits, and only in the
subscriptions `ls` that are still to follow it. The rules that are
remembered are right, but those of the event's file may be replaced yet. -/
structure Settling (right : Path → Ignore.Matcher → Prop) (e : WatchEvent)
    (ls : List (Nat × Listener)) (t : Service) (w : Watcher) : Prop where
  some_of : ∀ l ∈ ls, l ∈ t.listeners
  listens : Listens (fun id e' => e' = e ∧ ∃ l ∈ ls, l.1 = id) t w
  rules : ∀ file rules, t.ignore.get? file = some rules →
    right file rules ∨ (e.path == file) = true ∧ Waits w e ls

section Settling

variable {right : Path → Ignore.Matcher → Prop} {e : WatchEvent} {m : Machine} {t : Service}
  {w : Watcher}

variable {l : Nat × Listener} {ls : List (Nat × Listener)}

theorem Settling.take (h : Settling right e (l :: ls) t w) :
    Listens (fun id e' => e' = e ∧ ∃ l ∈ ls, l.1 = id)
      { t with watcher := some (w.setQueue l.1 []) } (w.setQueue l.1 []) := by
  refine h.listens.take l.1 ?_
  rintro l' - hne e' ⟨he, l'', hl'', hid⟩
  rcases List.mem_cons.mp hl'' with rfl | hl''
  · exact absurd hid.symm hne
  · exact ⟨he, l'', hl'', hid⟩

/-- What does not wait for rules in the first subscription waits in
another. -/
theorem Settling.waits_elsewhere (h : Settling right e (l :: ls) t w) {sub : Subscription}
    (hsub : w.find? l.1 = some sub) (hn : l.2 = .ignoreFile → e ∉ sub.queue)
    (hw : Waits w e (l :: ls)) : Waits (w.setQueue l.1 []) e ls := by
  obtain ⟨l', hl', hkind, sub', hsub', he⟩ := hw
  have hid : l'.1 ≠ l.1 := by
    intro hid
    obtain rfl := h.listens.distinct l' (h.some_of l' hl') l
      (h.some_of l (List.mem_cons_self ..)) hid
    obtain rfl := Option.some.inj (hsub.symm.trans hsub')
    exact hn hkind he
  have hls : l' ∈ ls := (List.mem_cons.mp hl').resolve_left fun hl => hid (by rw [hl])
  refine ⟨l', hls, hkind, sub', ?_, he⟩
  rw [Watcher.find?_setQueue, hsub', Option.map_some, if_neg hid]

/-- One subscription follows the event. -/
theorem Settling.step
    (htold : ∀ file, t.watchedIgnoreFiles.contains file = true → (e.path == file) = true →
      right file (Ignore.Cache.told m e))
    (h : Settling right e (l :: ls) t w) :
    Settling right e ls ((takeEvents l.1 >>= handleEach m l.2) t).state (w.setQueue l.1 []) := by
  obtain ⟨sub, hsub, hsound⟩ := h.listens.live l (h.some_of l (List.mem_cons_self ..))
  have htake := h.take
  have htaken := takeEvents_eq h.listens.watcher l.1
  rw [hsub, Option.map_some, Option.getD_some] at htaken
  rw [bind_apply, htaken]
  dsimp only
  generalize ht' : { t with watcher := some (w.setQueue l.1 []) } = t' at htake
  have hk := keeps_handleEach
    (f := fun s => (s.watcher, s.listeners, s.watchedIgnoreFiles))
    (fun _ _ => rfl) (fun _ _ => rfl) (fun _ _ => rfl) (fun _ _ => rfl) m l.2 sub.queue t'
  simp only [Prod.mk.injEq] at hk
  refine ⟨fun l' hl' => ?_, htake.congr hk.1 hk.2.1 hk.2.2, fun file rules hget => ?_⟩
  · rw [hk.2.1, ← ht']
    exact h.some_of l' (List.mem_cons_of_mem _ hl')
  rw [get?_handleEach m l.2 (fun e' he' => (hsound.waits e' he').1)] at hget
  split at hget
  · -- the event waited here, and its file's rules are replaced
    rename_i hc
    obtain ⟨hkind, hne, hpath⟩ := hc
    cases hget
    obtain ⟨e', hq⟩ := List.exists_mem_of_ne_nil _ hne
    obtain rfl := (hsound.waits e' hq).1
    rw [hkind] at hsound
    exact .inl (htold file (hsound.contains hq hpath) hpath)
  · rename_i hc
    rw [← ht'] at hget
    refine (h.rules file rules hget).imp_right fun ⟨hpath, hw⟩ => ⟨hpath, ?_⟩
    exact h.waits_elsewhere hsub
      (fun hkind he => hc ⟨hkind, List.ne_nil_of_mem he, hpath⟩) hw

/-- All subscriptions follow the event, one after the other. -/
theorem Settling.settle
    (htold : ∀ file, t.watchedIgnoreFiles.contains file = true → (e.path == file) = true →
      right file (Ignore.Cache.told m e))
    (h : Settling right e ls t w) : ∃ w', Settling right e [] (settle m ls t).state w' := by
  induction ls generalizing t w with
  | nil => exact ⟨w, h⟩
  | cons l ls ih =>
    have hk : Keeps Service.watchedIgnoreFiles (takeEvents l.1 >>= handleEach m l.2) :=
      (keeps_takeEvents (fun _ _ => rfl) l.1).bind fun es =>
        keeps_handleEach (fun _ _ => rfl) (fun _ _ => rfl) (fun _ _ => rfl) (fun _ _ => rfl)
          m l.2 es
    exact ih (fun file hf => htold file (hk t ▸ hf)) (h.step htold)

end Settling

/-! ## §3 Delivering -/

/-- **What a delivery leaves.** Nothing waits any more; and what was right of
the rules that are remembered for other files, and is of those that the
event tells of, is right of all that are remembered. -/
theorem deliver_rules {right : Path → Ignore.Matcher → Prop} {e : WatchEvent} {m : Machine}
    {s : Service} {w : Watcher} (h : Listens (fun _ _ => False) s w)
    (hnoted : ∀ file rules, s.ignore.get? file = some rules →
      s.watchedIgnoreFiles.contains file = true)
    (hother : ∀ file rules, s.ignore.get? file = some rules → (e.path == file) = false →
      right file rules)
    (htold : ∀ file, s.watchedIgnoreFiles.contains file = true → (e.path == file) = true →
      right file (Ignore.Cache.told m e)) :
    ∃ w', Listens (fun _ _ => False) (deliver m e s).state w' ∧
      ∀ file rules, (deliver m e s).state.ignore.get? file = some rules → right file rules := by
  have hd : (deliver m e s).state =
      (Service.settle m s.listeners { s with watcher := some (w.emit e).2 }).state := by
    unfold deliver
    rw [get_bind_apply, h.watcher]
    rfl
  have hstart : Settling right e s.listeners { s with watcher := some (w.emit e).2 }
      (w.emit e).2 := by
    refine ⟨fun l hl => hl, h.emit e (fun _ _ hw => hw.elim) fun l hl => ⟨rfl, l, hl, rfl⟩, ?_⟩
    intro file rules hget
    cases hp : e.path == file with
    | false => exact .inl (hother file rules hget hp)
    | true =>
      obtain ⟨f, hf, hff⟩ := List.contains_iff_exists_mem_beq.mp (hnoted file rules hget)
      obtain ⟨l, hl, hk, sub, hs, hpattern⟩ := h.files f hf
      refine .inr ⟨rfl, l, hl, hk, sub.receive e, by rw [Watcher.find?_emit, hs]; rfl, ?_⟩
      rw [Subscription.mem_queue_receive, hpattern]
      exact .inr ⟨rfl, BEq.trans (BEq.symm hff) (BEq.symm hp)⟩
  obtain ⟨w', hend⟩ := Settling.settle (m := m)
    (t := { s with watcher := some (w.emit e).2 }) htold hstart
  rw [hd]
  refine ⟨w', ?_, fun file rules hget => ?_⟩
  · refine hend.listens.mono ?_
    rintro l - e' ⟨-, l', hl', -⟩
    exact absurd hl' List.not_mem_nil
  · rcases hend.rules file rules hget with hr | ⟨-, l, hl, -⟩
    · exact hr
    · exact absurd hl List.not_mem_nil

end FormatHost.Service
