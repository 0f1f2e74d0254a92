import Upkeep.Failure.Basic
import Upkeep.Task.Recovery

/-!
This module contains the wait for several tasks. It ends when all tasks have ended, and reports the
failure of the first task in the order in which they were given, whichever failed first in time.
-/

namespace Upkeep.Task

inductive Outcome where
  | ok
  | failed (cause : Failure)
  | panicked (p : Payload)
  | cancelled
  deriving DecidableEq, Inhabited

/--
What a wait reports. The index says which task it was.
-/
inductive WaitError where
  | failed (index : Nat) (cause : Failure)
  | panicked (index : Nat) (message : String)
  | cancelled (index : Nat)
  deriving DecidableEq, Inhabited

namespace WaitError

def message : WaitError → String
  | failed index _ => "task " ++ toString index ++ " failed"
  | panicked index message => "task " ++ toString index ++ " panicked: " ++ message
  | cancelled index => "task " ++ toString index ++ " was cancelled"

def toFailure : WaitError → Failure
  | failed index cause => .wrapped (failed index cause).message cause
  | e => .plain e.message

def index : WaitError → Nat
  | failed index _ => index
  | panicked index _ => index
  | cancelled index => index

end WaitError

def Outcome.error? (index : Nat) : Outcome → Option WaitError
  | ok => none
  | failed cause => some (.failed index cause)
  | panicked p => some (.panicked index p.message)
  | cancelled => some (.cancelled index)

/--
The error of the first outcome that is one, counted from `start`.
-/
def firstError? (start : Nat) : List Outcome → Option WaitError
  | [] => none
  | o :: os =>
    match o.error? start with
    | some e => some e
    | none => firstError? (start + 1) os

/--
A wait: for each task its outcome, once it has ended.
-/
structure Wait where
  outcomes : List (Option Outcome)
  deriving DecidableEq, Inhabited

namespace Wait

/--
A wait for `n` tasks that have just been started.
-/
def start (n : Nat) : Wait := ⟨List.replicate n none⟩

/--
Takes notice of the end of a task. A task ends once.
-/
def finish (w : Wait) (index : Nat) (o : Outcome) : Wait :=
  match w.outcomes[index]? with
  | some none => ⟨w.outcomes.set index (some o)⟩
  | _ => w

def isOver (w : Wait) : Bool := w.outcomes.all Option.isSome

/--
What the wait reports. There is no report before all tasks have ended.
-/
def report? (w : Wait) : Option (Except WaitError Unit) :=
  if w.isOver then
    match firstError? 0 (w.outcomes.filterMap id) with
    | some e => some (.error e)
    | none => some (.ok ())
  else
    none

end Wait

end Upkeep.Task
