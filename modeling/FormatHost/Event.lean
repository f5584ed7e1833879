/-
FormatHost.Event — what others can see of a run.

Everything that the program does to its surroundings while it works is an
event: log lines, calls of a formatter, registrations with the editor,
statuses. An operation on a state of type `σ` is a `Run σ α`: it answers,
goes over to a new state and lists its events in order.

* §1 events;
* §2 runs, with one equation for each way to build them;
* §3 runs on a part of a state.
-/
import FormatHost.Install
import FormatHost.Selector
import FormatHost.Status

namespace FormatHost

/-! ## §1 Events -/

inductive Level
  | warn
  | error
  deriving Repr, DecidableEq

/-- A question that was put to a formatter. -/
inductive Call
  | format (text : String) (options : Options)
  | supportInfo (plugins : List String)
  | fileInfo (path : Path) (options : FileInfoOptions)
  | resolveConfig (path : Path) (options : ConfigOptions)
  deriving Repr

inductive Event
  | log (level : Level) (text : String)
  /-- A formatter package was to be loaded. -/
  | load (install : Install)
  /-- A formatter of the given origin was called. -/
  | call (origin : Origin) (c : Call)
  | register (folder : Option Path) (selectors : Selectors) (priority : Int32)
  | unregister (folder : Option Path)
  | status (s : Status)
  | hideStatus

/-! ## §2 Runs -/

/-- What a run comes to. -/
structure Outcome (σ α : Type) where
  value : α
  state : σ
  events : List Event

/-- An operation on a state. -/
def Run (σ α : Type) : Type := σ → Outcome σ α

namespace Run

variable {σ τ α β : Type}

instance : Monad (Run σ) where
  pure a := fun s => ⟨a, s, []⟩
  bind x f := fun s =>
    let a := x s
    let b := f a.value a.state
    ⟨b.value, b.state, a.events ++ b.events⟩

def get : Run σ σ := fun s => ⟨s, s, []⟩

def set (s : σ) : Run σ Unit := fun _ => ⟨(), s, []⟩

def modify (f : σ → σ) : Run σ Unit := fun s => ⟨(), f s, []⟩

def emit (e : Event) : Run σ Unit := fun s => ⟨(), s, [e]⟩

def warn (text : String) : Run σ Unit := emit (.log .warn text)

def error (text : String) : Run σ Unit := emit (.log .error text)

@[simp] theorem pure_apply (a : α) (s : σ) : (pure a : Run σ α) s = ⟨a, s, []⟩ := rfl

@[simp] theorem bind_apply (x : Run σ α) (f : α → Run σ β) (s : σ) :
    (x >>= f) s =
      ⟨(f (x s).value (x s).state).value, (f (x s).value (x s).state).state,
        (x s).events ++ (f (x s).value (x s).state).events⟩ := rfl

@[simp] theorem get_apply (s : σ) : (get : Run σ σ) s = ⟨s, s, []⟩ := rfl

@[simp] theorem set_apply (s t : σ) : (set t : Run σ Unit) s = ⟨(), t, []⟩ := rfl

@[simp] theorem modify_apply (f : σ → σ) (s : σ) : modify f s = ⟨(), f s, []⟩ := rfl

@[simp] theorem emit_apply (e : Event) (s : σ) : (emit e : Run σ Unit) s = ⟨(), s, [e]⟩ := rfl

/-- Emit a list of events. -/
def emitAll : List Event → Run σ Unit := fun es s => ⟨(), s, es⟩

/-! ## §3 Parts of a state -/

/-- An operation on a part of the state. -/
def on (part : σ → τ) (put : σ → τ → σ) (x : Run τ α) : Run σ α := fun s =>
  let a := x (part s)
  ⟨a.value, put s a.state, a.events⟩

@[simp] theorem on_apply (part : σ → τ) (put : σ → τ → σ) (x : Run τ α) (s : σ) :
    on part put x s = ⟨(x (part s)).value, put s (x (part s)).state, (x (part s)).events⟩ := rfl

end Run
end FormatHost
