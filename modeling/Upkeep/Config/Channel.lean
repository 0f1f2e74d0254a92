/-!
This module contains bounded channels. A sender that finds the channel full or its receiver gone is
told so and goes on.
-/

namespace Upkeep.Config

/--
A channel: what is queued in it, oldest first, and which of its ends are still there.
-/
structure Channel (α : Type u) where
  capacity : Nat
  queue : List α
  hasSender : Bool
  hasReceiver : Bool
  deriving Inhabited

inductive Sent where
  | ok
  | full
  | closed
  deriving DecidableEq, Inhabited

/--
What a receiver is told. A channel is closed for its receiver once the sender is gone and nothing is
queued any more.
-/
inductive Polled (α : Type u) where
  | value (x : α)
  | pending
  | closed
  deriving DecidableEq, Inhabited

namespace Channel

/--
A channel with both ends and nothing in it.
-/
def empty (capacity : Nat) : Channel α :=
  { capacity, queue := [], hasSender := true, hasReceiver := true }

/--
Puts a value into the channel, if there is room.
-/
def send (c : Channel α) (x : α) : Channel α × Sent :=
  if !c.hasReceiver then (c, .closed)
  else if c.queue.length < c.capacity then ({ c with queue := c.queue ++ [x] }, .ok)
  else (c, .full)

/--
Takes the oldest value out of the channel.
-/
def receive (c : Channel α) : Channel α × Polled α :=
  match c.queue with
  | x :: rest => ({ c with queue := rest }, .value x)
  | [] => (c, if c.hasSender then .pending else .closed)

def dropSender (c : Channel α) : Channel α := { c with hasSender := false }

/--
The receiver goes away, and with it what is queued.
-/
def dropReceiver (c : Channel α) : Channel α := { c with hasReceiver := false, queue := [] }

end Channel

end Upkeep.Config
