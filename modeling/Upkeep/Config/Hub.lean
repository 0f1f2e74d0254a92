import Upkeep.Config.Channel
import Upkeep.Event

/-!
This module contains hubs, which hand each event of a key to several channels. A channel that is
full misses the event but stays; one whose receiver is gone is forgotten.
-/

namespace Upkeep.Config

/--
The channels of a hub, by their index, and how many events were missed.
-/
structure Hub where
  members : List Nat
  missed : Nat
  deriving DecidableEq, Inhabited

namespace Hub

def empty : Hub := ⟨[], 0⟩

def join (h : Hub) (channel : Nat) : Hub := { h with members := h.members ++ [channel] }

def missedEvent (key : String) (missed : Nat) : Event :=
  .warn "config watch subscriber is full, event dropped"
    [("key", key), ("dropped", toString missed)]

/--
Hands an event to one channel of a hub.
-/
def offer (key : String) (x : α) (h : Hub) (cs : List (Channel α)) (channel : Nat) :
    Hub × List (Channel α) × List Event :=
  match cs[channel]? with
  | some c =>
    match c.send x with
    | (c, .ok) => (h.join channel, cs.set channel c, [])
    | (_, .full) =>
      let h := { h.join channel with missed := h.missed + 1 }
      (h, cs, [missedEvent key h.missed])
    | (_, .closed) => (h, cs, [])
  | none => (h, cs, [])

/--
Hands an event to all channels of a hub.
-/
def publish (key : String) (x : α) (h : Hub) (cs : List (Channel α)) :
    Hub × List (Channel α) × List Event :=
  h.members.foldl (fun (h, cs, es) channel =>
    let (h, cs, more) := h.offer key x cs channel
    (h, cs, es ++ more)) ({ h with members := [] }, cs, [])

end Hub

end Upkeep.Config
