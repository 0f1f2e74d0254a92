import Upkeep.Task.Code

/-!
This module contains detached tasks: tasks whose panics are recovered from. The body of a task may
wait between pieces of code, and other tasks take their turns meanwhile. Every piece is guarded, and
a panic in any of them ends the task.
-/

namespace Upkeep.Task

/--
The body of a task: pieces of code with waits between them. Behind a wait the body goes on with the
value of the piece before it.
-/
inductive Body (α : Type u) where
  | last (c : Code α)
  | waits (c : Code α) (next : α → Body α)

/--
The code of a body, as it runs if there is nothing to wait for.
-/
def Body.code : Body α → Code α
  | last c => c
  | waits c next => c.andThen fun a => (next a).code

/--
A task with the guard around it.
-/
structure Detached (α : Type u) where
  guard : Guard
  callback : Report → Code α
  body : Body α

/--
How far a task has come: it still has to run a body, or it can be joined. The result is missing if
the task panicked, and it is a panic if the callback panicked.
-/
inductive Progress (α : Type u) where
  | awaiting (b : Body α)
  | joined (r : Except Payload (Option α))

namespace Detached

/--
Guards an attempt as the task is guarded.
-/
def guarded (t : Detached α) (x : Attempt α) : Attempt (Option α) :=
  (t.guard.recovery fun r => (t.callback r).attempt).guarded t.guard.label x

/--
Runs the next piece of a body.
-/
def poll (t : Detached α) : Body α → Progress α × List Note
  | .last c =>
    let x := t.guarded c.attempt
    (.joined x.result, x.notes)
  | .waits c next =>
    let x := t.guarded c.attempt
    match x.result with
    | .ok (some a) => (.awaiting (next a), x.notes)
    | r => (.joined r, x.notes)

end Detached

/--
Tasks in the order of their start, how far each has come, and what they have done, with the task
that did it.
-/
structure Crew (α : Type u) where
  tasks : List (Detached α)
  progress : List (Progress α)
  notes : List (Nat × Note)

namespace Crew

def start (ts : List (Detached α)) : Crew α := ⟨ts, ts.map fun t => .awaiting t.body, []⟩

/--
Gives a task its turn. A task that can be joined has nothing to do.
-/
def turn (w : Crew α) (i : Nat) : Crew α :=
  match w.tasks[i]?, w.progress[i]? with
  | some t, some (.awaiting b) =>
    let (p, notes) := t.poll b
    { w with progress := w.progress.set i p, notes := w.notes ++ notes.map fun n => (i, n) }
  | _, _ => w

def run (w : Crew α) (turns : List Nat) : Crew α := turns.foldl turn w

/--
What a task has done, in order.
-/
def notesOf (w : Crew α) (i : Nat) : List Note :=
  (w.notes.filter fun e => e.1 = i).map Prod.snd

/--
The result of a task, once it can be joined.
-/
def joined? (w : Crew α) (i : Nat) : Option (Except Payload (Option α)) :=
  match w.progress[i]? with
  | some (.joined r) => some r
  | _ => none

end Crew

end Upkeep.Task
