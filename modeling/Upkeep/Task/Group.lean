import Upkeep.Task.Pool

/-!
This module contains groups: the tasks of a pool, and one who waits for all of them. Tasks may take
their turns in any order, also while the clock goes on, and the one who waits may look at a task at
any time.
-/

namespace Upkeep.Task

namespace Pool

/--
Gives a task its turn before all others. A task that has nothing to do takes a turn in vain.
-/
def turnOf (p : Pool α) (i : Nat) : Pool α := { p with queue := i :: p.queue.erase i }.turn

/--
Lets a time pass, whether or not a task can run. Tasks that wake up meanwhile join the queue.
-/
def pass (p : Pool α) (ms : Nat) : Pool α :=
  let clock := p.clock + ms
  let woken := p.slots.zipIdx.filter fun s => (s.1.due? p.clock).any (· ≤ clock)
  { p with clock, queue := p.queue ++ woken.map Prod.snd }

end Pool

/--
The tasks of a pool, and what the one who waits for them has seen.
-/
structure Group (α : Type u) where
  pool : Pool (Except Failure α)
  wait : Wait

/--
Something that happens to a group. A task takes a turn, time passes, one task or all of them are
cancelled, or the one who waits looks at a task.
-/
inductive GroupAction where
  | turn (task : Nat)
  | pass (ms : Nat)
  | cancel (task : Nat)
  | shutdown
  | look (task : Nat)
  deriving DecidableEq

namespace Group

/--
Tasks that have just been started, and nothing has been seen of them.
-/
def start (jobs : List (Job (Except Failure α))) : Group α := ⟨.start jobs, .start jobs.length⟩

def outcome? (g : Group α) (i : Nat) : Option Outcome := (g.pool.slots[i]?).bind Slot.outcome?

/--
The one who waits looks at a task, and takes notice if it has ended.
-/
def look (g : Group α) (i : Nat) : Group α :=
  match g.outcome? i with
  | some o => { g with wait := g.wait.finish i o }
  | none => g

def step (g : Group α) : GroupAction → Group α
  | .turn i => { g with pool := g.pool.turnOf i }
  | .pass ms => { g with pool := g.pool.pass ms }
  | .cancel i => { g with pool := g.pool.cancel i }
  | .shutdown => { g with pool := g.pool.shutdown }
  | .look i => g.look i

def run (g : Group α) (as : List GroupAction) : Group α := as.foldl step g

def report? (g : Group α) : Option (Except WaitError Unit) := g.wait.report?

end Group

end Upkeep.Task
