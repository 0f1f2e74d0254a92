import Upkeep.Event
import Upkeep.Text.Inspect
import Upkeep.Text.Quoted

/-!
This module contains the recovery from panics. An attempt either gives a value or panics, and leaves
notes of what was done on the way. A guarded attempt never panics by itself: the panic is counted,
logged and told, as far as that is asked for, and the value is missing.
-/

namespace Upkeep.Task

/--
What a panic carries.
-/
inductive Payload where
  | text (s : String)
  | other
  deriving DecidableEq, Inhabited

def Payload.message : Payload → String
  | text s => s
  | other => "<non-string panic payload>"

structure Report where
  label : String
  message : String
  deriving DecidableEq, Inhabited

/--
Something that was done: a counter was raised, an event was emitted, or somebody was told of a
panic.
-/
inductive Note where
  | counted (key : String)
  | emitted (e : Event)
  | told (r : Report)
  deriving DecidableEq, Inhabited

/--
The notes of an attempt, and its value or its panic.
-/
structure Attempt (α : Type u) where
  notes : List Note
  result : Except Payload α
  deriving Inhabited

namespace Attempt

def value (a : α) : Attempt α := ⟨[], .ok a⟩

def panic (p : Payload) : Attempt α := ⟨[], .error p⟩

def note (n : Note) : Attempt Unit := ⟨[n], .ok ()⟩

/--
Goes on with the value of an attempt, unless that panics.
-/
def andThen (x : Attempt α) (f : α → Attempt β) : Attempt β :=
  match x.result with
  | .ok a => { f a with notes := x.notes ++ (f a).notes }
  | .error p => ⟨x.notes, .error p⟩

instance : Monad Attempt where
  pure := value
  bind := andThen

end Attempt

structure Recovery where
  log : Bool
  metric : Option String
  callback : Option (Report → Attempt Unit)

namespace Recovery

def silent : Recovery := { log := false, metric := none, callback := none }

def logged : Recovery := { silent with log := true }

def event (r : Report) : Event :=
  .error "panic caught" [("task", r.label), ("panic", r.message)]

/--
Does what is to be done about a panic: the counter first, then the log, then the callback. Nothing
guards the callback.
-/
def recover (o : Recovery) (r : Report) : Attempt Unit := do
  match o.metric with
  | some key => Attempt.note (.counted key)
  | none => pure ()
  if o.log then
    Attempt.note (.emitted (event r))
  match o.callback with
  | some f => f r
  | none => pure ()

/--
Guards an attempt. A value that is missing says that the attempt panicked.
-/
def guarded (o : Recovery) (label : String) (x : Attempt α) : Attempt (Option α) :=
  match x.result with
  | .ok a => ⟨x.notes, .ok (some a)⟩
  | .error p =>
    Attempt.andThen ⟨x.notes, .ok ()⟩ fun _ =>
      (o.recover ⟨label, p.message⟩).andThen fun _ => .value none

def inspect (o : Recovery) : String :=
  Text.inspect "RecoveryOptions"
    [("error_log", toString o.log), ("metrics_key", Text.quote? o.metric),
     ("has_callback", toString o.callback.isSome)]

end Recovery

end Upkeep.Task
