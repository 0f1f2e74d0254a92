import Upkeep.Task.Pool

/-!
This module contains the awaiting of the tasks of a pool, one after the other. The one who awaits
them is not a task: a stretch of turns passes before they look again at what is over, and one look
takes in a limited number of tasks. So a task that is cancelled when its turn to be awaited comes
may be over before, or not, by the number of those that were started before it.
-/

namespace Upkeep.Task

/--
Someone who awaits the tasks of a pool in their order. `next` is the task that is awaited, and
`isWoken` says whether it is time to look again.
-/
structure Awaiting (α : Type u) where
  pool : Pool α
  next : Nat
  isWoken : Bool

namespace Awaiting

/--
How many tasks take their turns before the one who awaits them looks again.
-/
def stretch : Nat := 61

/--
How many tasks that are over are taken in at one look.
-/
def attention : Nat := 128

def start (p : Pool α) : Awaiting α := ⟨p, 0, true⟩

/--
Whether all tasks have been taken in.
-/
def isDone (w : Awaiting α) : Bool := w.pool.slots.length ≤ w.next

/--
Takes in the tasks that are over, up to one that is not. One task may be cancelled before it is
looked at. When the attention is used up, it is time to look again at once.
-/
def look (cancelled : Option Nat) : Nat → Awaiting α → Awaiting α
  | fuel, w =>
    if w.isDone then w
    else
      let pool := if cancelled = some w.next then w.pool.cancel w.next else w.pool
      match fuel with
      | 0 => { w with pool, isWoken := true }
      | fuel + 1 =>
        if pool.isOver w.next then look cancelled fuel ⟨pool, w.next + 1, w.isWoken⟩
        else { w with pool, isWoken := false }

/--
A look, if it is time for one, a stretch of turns and, if then nothing can run, a waking.
-/
def round (cancelled : Option Nat) (w : Awaiting α) : Awaiting α :=
  let w := if w.isWoken then look cancelled attention w else w
  let pool := Nat.repeat Pool.turn stretch w.pool
  let isWoken := w.isWoken || pool.isOver w.next
  { w with isWoken, pool := if pool.queue.isEmpty && !isWoken then pool.wake none else pool }

/--
Awaits all tasks. Each takes at most three turns, and at most one waking.
-/
def run (cancelled : Option Nat) (w : Awaiting α) : Awaiting α :=
  go (8 * w.pool.slots.length + 8) w
where
  go : Nat → Awaiting α → Awaiting α
    | 0, w => w
    | fuel + 1, w => if w.isDone then w else go fuel (round cancelled w)

end Awaiting

/--
Awaits the tasks of a pool one after the other. One of them may be cancelled when its turn comes to
be awaited.
-/
def Pool.awaitEach (p : Pool α) (cancelled : Option Nat) : Pool α :=
  ((Awaiting.start p).run cancelled).pool

end Upkeep.Task
