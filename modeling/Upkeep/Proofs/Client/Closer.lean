import Upkeep.Client.Buffer

/-!
This module contains closers as guarded attempts. A closer counts how it ends by itself, unless it
panics: then whoever guards it counts the panic as a failure. The buffer takes notice of the end of
a closer as the guarded attempt does, so that each end is counted once and no panic gets past it.
-/

namespace Upkeep

namespace Task.Note

def counter? : Note → Option String
  | counted key => some key
  | _ => none

def event? : Note → Option Event
  | emitted e => some e
  | _ => none

end Task.Note

namespace Client

/--
The counter for the way in which a closer has ended.
-/
def CloseOutcome.counter : CloseOutcome → String
  | closed => "clientDestroy.succ"
  | failed _ | panicked _ => "clientDestroy.fail"

/--
What is done about a panic of a closer: it is logged, and counted as a failure.
-/
def closerRecovery : Task.Recovery :=
  { Task.Recovery.logged with
    callback := some fun _ => Task.Attempt.note (.counted "clientDestroy.fail") }

/--
A closer that has come to its end. A panic of it is caught under the label.
-/
structure Ending where
  label : String
  name : String
  previous : Record Connection
  outcome : CloseOutcome
  deriving DecidableEq

namespace Ending

/--
What a closer does by itself.
-/
def attempt (e : Ending) : Task.Attempt Unit :=
  let fields := [("name", e.name), ("target", e.previous.target)]
  match e.outcome with
  | .closed => do
    Task.Attempt.note (.counted "clientDestroy.succ")
    Task.Attempt.note (.emitted (.info "previous client closed" fields))
  | .failed cause => do
    Task.Attempt.note (.counted "clientDestroy.fail")
    Task.Attempt.note
      (.emitted (.error "close previous client failed" (fields ++ [("error", cause.text)])))
  | .panicked p => Task.Attempt.panic p

def guarded (e : Ending) : Task.Attempt (Option Unit) := closerRecovery.guarded e.label e.attempt

/--
The counters that were raised on the way.
-/
def counted (e : Ending) : List String := e.guarded.notes.filterMap Task.Note.counter?

/--
The events that were emitted on the way.
-/
def emitted (e : Ending) : List Event := e.guarded.notes.filterMap Task.Note.event?

/--
The guard lets no panic out. The value is missing if there was one.
-/
theorem result_guarded (e : Ending) :
    ∃ v, e.guarded.result = .ok v ∧ (v = none ↔ ∃ p, e.outcome = .panicked p) := by
  obtain ⟨label, name, previous, outcome⟩ := e
  cases outcome with
  | closed => exact ⟨some (), rfl, by simp⟩
  | failed cause => exact ⟨some (), rfl, by simp⟩
  | panicked p => exact ⟨none, rfl, by simp⟩

/--
Either the closer counts its end or the guard does, but not both.
-/
theorem counted_eq (e : Ending) : e.counted = [e.outcome.counter] := by
  obtain ⟨label, name, previous, outcome⟩ := e
  cases outcome <;> rfl

end Ending

def Tallies.raise (t : Tallies) (key : String) : Tallies :=
  if key = "clientUpdate.cnt" then { t with updates := t.updates + 1 }
  else if key = "clientDestroy.succ" then { t with closed := t.closed + 1 }
  else if key = "clientDestroy.fail" then { t with failed := t.failed + 1 }
  else t

/--
A buffer takes notice of the end of a closer as the guarded attempt does.
-/
theorem Buffer.closed_eq_guarded (b : Buffer) (e : Ending) :
    b.closed e.name e.label e.previous e.outcome =
      ({ b with tallies := e.counted.foldl Tallies.raise b.tallies }, e.emitted) := by
  rw [e.counted_eq]
  obtain ⟨label, name, previous, outcome⟩ := e
  cases outcome <;> rfl

end Client

end Upkeep
