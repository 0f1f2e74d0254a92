import Upkeep.Task.Wait

/-!
This module contains pools of tasks that take turns on one clock. A task sleeps for a while and then
makes its attempt. Tasks that can run stand in a queue and take their turns one after the other. The
clock stands still while a task can run, and then goes on to the time when the next one wakes up.
Tasks that wake up at the same time join the queue in the order in which they were started.
-/

namespace Upkeep.Task

/--
What a task is to do. Without an attempt it never ends.
-/
structure Job (α : Type u) where
  delay : Nat
  attempt : Option (Attempt α)

/--
Where a task stands. One that is being cancelled ends with its next turn, before it does anything.
-/
inductive Status (α : Type u) where
  | fresh
  | asleep (due : Nat)
  | stuck
  | cancelling
  | ended (time : Nat) (result : Except Payload α)
  | cancelled

structure Slot (α : Type u) where
  job : Job α
  status : Status α

/--
Tasks in the order of their start, the time, the tasks that can run, and the notes of all attempts
so far.
-/
structure Pool (α : Type u) where
  clock : Nat
  slots : List (Slot α)
  queue : List Nat
  notes : List Note

namespace Slot

def isOver (s : Slot α) : Bool :=
  match s.status with
  | .ended _ _ | .cancelled => true
  | _ => false

/--
When the task wakes up, if that is later than now.
-/
def due? (clock : Nat) (s : Slot α) : Option Nat :=
  match s.status with
  | .asleep due => if clock < due then some due else none
  | _ => none

/--
Whether the task waits for something other than its turn.
-/
def isWaiting (clock : Nat) (s : Slot α) : Bool :=
  match s.status with
  | .stuck => true
  | _ => (s.due? clock).isSome

/--
The task after its attempt, with the notes of it. Without an attempt the task is stuck.
-/
def finish (clock : Nat) (s : Slot α) : Slot α × List Note :=
  match s.job.attempt with
  | some a => ({ s with status := .ended clock a.result }, a.notes)
  | none => ({ s with status := .stuck }, [])

/--
The turn of a task: a fresh one lies down or makes its attempt, one whose time has come makes its
attempt, and one that is being cancelled ends.
-/
def turn (clock : Nat) (s : Slot α) : Slot α × List Note :=
  match s.status with
  | .fresh =>
    if s.job.delay = 0 then s.finish clock
    else ({ s with status := .asleep (clock + s.job.delay) }, [])
  | .asleep due => if due ≤ clock then s.finish clock else (s, [])
  | .cancelling => ({ s with status := .cancelled }, [])
  | _ => (s, [])

end Slot

namespace Pool

/--
Tasks that have been started but had no turn yet.
-/
def start (jobs : List (Job α)) : Pool α :=
  { clock := 0, slots := jobs.map fun j => ⟨j, .fresh⟩, queue := List.range jobs.length
    notes := [] }

/--
Gives the first task of the queue its turn.
-/
def turn (p : Pool α) : Pool α :=
  match p.queue with
  | [] => p
  | i :: rest =>
    match p.slots[i]? with
    | none => { p with queue := rest }
    | some s =>
      let (s, notes) := s.turn p.clock
      { p with slots := p.slots.set i s, queue := rest, notes := p.notes ++ notes }

/--
Gives every task that can run its turn.
-/
def settle (p : Pool α) : Pool α := Nat.repeat turn p.queue.length p

/--
The time when the next task wakes up.
-/
def next? (p : Pool α) : Option Nat := (p.slots.filterMap (Slot.due? p.clock)).min?

/--
Lets time pass until tasks wake up, at most up to a limit. Gives the pool back unchanged if none
will.
-/
def wake (limit : Option Nat) (p : Pool α) : Pool α :=
  match p.next? with
  | some due =>
    if limit.all (due ≤ ·) then
      let woken := p.slots.zipIdx.filter fun s => s.1.due? p.clock = some due
      { p with clock := due, queue := p.queue ++ woken.map Prod.snd }
    else p
  | none => p

def isOver (p : Pool α) (i : Nat) : Bool := (p.slots[i]?).all Slot.isOver

/--
Lets time pass until all tasks are over that ever will be. Each waking ends at least one task.
-/
def awaitAll (p : Pool α) : Pool α :=
  Nat.repeat (fun p => (p.wake none).settle) p.slots.length p.settle

def advance (p : Pool α) (ms : Nat) : Pool α :=
  let limit := p.clock + ms
  { Nat.repeat (fun p => (p.wake (some limit)).settle) p.slots.length p.settle with
    clock := limit }

/--
Cancels a task, unless it is over. A task that waits for something takes a turn for it.
-/
def cancel (p : Pool α) (i : Nat) : Pool α :=
  match p.slots[i]? with
  | some s =>
    if s.isOver then p
    else
      { p with
        slots := p.slots.set i { s with status := .cancelling }
        queue := if s.isWaiting p.clock then p.queue ++ [i] else p.queue }
  | none => p

/--
Cancels all tasks that are not over, at once.
-/
def shutdown (p : Pool α) : Pool α :=
  { p with
    slots := p.slots.map fun s => if s.isOver then s else { s with status := .cancelled }
    queue := [] }

/--
When the tasks ended that made their attempt, with their indices, in order.
-/
def ends (p : Pool α) : List (Nat × Nat) :=
  let all := p.slots.zipIdx.filterMap fun s =>
    match s.1.status with
    | .ended time _ => some (time, s.2)
    | _ => none
  all.mergeSort fun a b => a.1 < b.1 || (a.1 = b.1 && a.2 ≤ b.2)

end Pool

/--
How a task of a pool ended, if it did. The attempt itself may have failed.
-/
def Slot.outcome? (s : Slot (Except Failure α)) : Option Outcome :=
  match s.status with
  | .ended _ (.ok (.ok _)) => some .ok
  | .ended _ (.ok (.error cause)) => some (.failed cause)
  | .ended _ (.error p) => some (.panicked p)
  | .cancelled => some .cancelled
  | _ => none

def Pool.toWait (p : Pool (Except Failure α)) : Wait := ⟨p.slots.map Slot.outcome?⟩

/--
What is said when a task is started where no tasks can run.
-/
def noRuntime : String :=
  "there is no reactor running, must be called from the context of a Tokio 1.x runtime"

end Upkeep.Task
