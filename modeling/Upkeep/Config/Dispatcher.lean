import Upkeep.Config.Channel
import Upkeep.Config.Error
import Upkeep.Event
import Upkeep.Text.Inspect
import Upkeep.Text.Quoted

/-!
This module contains dispatchers. A dispatcher opens one feed for a key and hands each value that
comes out of it to all subscriptions. A subscription keeps only the latest value. When the feed
ends, all subscriptions end, and the dispatcher may be started again.

Starts, values, subscriptions and the end of the feed may come in any order: everything that happens
is one of the actions of `DispatcherAction`.
-/

namespace Upkeep.Config

/--
The place of a subscription: the latest value, whether it was not yet looked at, and whether the
dispatcher and the subscriber still hold on to it.
-/
structure Slot (α : Type u) where
  value : Option α
  unseen : Bool
  hasSource : Bool
  hasReader : Bool
  deriving Inhabited

namespace Slot

def empty (hasSource : Bool) : Slot α :=
  { value := none, unseen := false, hasSource, hasReader := true }

/--
Puts a value in the place of the one before it.
-/
def put (s : Slot α) (x : α) : Slot α := { s with value := some x, unseen := true }

/--
Looks for a value that was not yet looked at. The slot is closed only if there is none.
-/
def poll (s : Slot α) : Slot α × Polled α :=
  match s.unseen, s.value with
  | true, some x => ({ s with unseen := false }, .value x)
  | _, _ => (s, if s.hasSource then .pending else .closed)

end Slot

/--
A call that starts a dispatcher, by how far it has come: it waits for its turn, it waits for the
feed to open, or it is over. `opened` says whether it has tried to open a feed.
-/
inductive Start where
  | waiting
  | opening
  | done (opened : Bool) (r : Except ConfigError Unit)

/--
The loop that takes values out of a feed: it runs, it has seen the end of the feed, or it
has cleared the dispatcher and is gone.
-/
inductive LoopPhase where
  | running
  | ending
  | gone
  deriving DecidableEq, Inhabited

structure Loop where
  feed : Nat
  phase : LoopPhase
  deriving DecidableEq, Inhabited

/--
How many subscriptions were made, values handed to one, and subscriptions found closed.
-/
structure WatchTallies where
  made : Nat
  updated : Nat
  closed : Nat
  deriving DecidableEq, Inhabited

/--
A dispatcher with everything around it. `slots` are all subscriptions that there ever were, and
`registered` are those that the dispatcher hands values to, by their number there. `holder` is the
start that is waiting for its feed to open, while all others have to wait.
-/
structure Dispatcher (α : Type u) where
  key : String
  handles : List Bool
  slots : List (Slot α)
  registered : List (Nat × Nat)
  nextId : Nat
  channels : List (Channel α)
  starts : List Start
  holder : Option Nat
  started : Bool
  ended : Bool
  loops : List Loop
  tallies : WatchTallies

/--
Something that happens to a dispatcher. A feed is opened by the one who starts the dispatcher;
`opened` tells how that went.
-/
inductive DispatcherAction (α : Type u) where
  | subscribe
  | unsubscribe (slot : Nat)
  | poll (slot : Nat)
  | start
  | acquire (start : Nat)
  | opened (start : Nat) (feed : Except ConfigError Nat)
  | makeChannel (capacity : Nat)
  | send (channel : Nat) (x : α)
  | dropSender (channel : Nat)
  | receive (loop : Nat)
  | finish (loop : Nat)
  | clear (loop : Nat)
  | clone
  | drop (handle : Nat)

namespace Dispatcher

/--
A dispatcher with one handle that has not been started.
-/
def make (key : String) : Dispatcher α :=
  { key, handles := [true], slots := [], registered := [], nextId := 0, channels := []
    starts := [], holder := none, started := false, ended := false, loops := []
    tallies := ⟨0, 0, 0⟩ }

/--
Makes a subscription. After the end of the feed it is closed from the beginning.
-/
def subscribe (d : Dispatcher α) : Dispatcher α :=
  if d.ended then
    { d with slots := d.slots ++ [.empty false] }
  else
    { d with
      slots := d.slots ++ [.empty true]
      registered := d.registered ++ [(d.nextId, d.slots.length)]
      nextId := d.nextId + 1
      tallies := { d.tallies with made := d.tallies.made + 1 } }

def subscriberCount (d : Dispatcher α) : Nat := d.registered.length

/--
Whether the subscriber of a slot is still there.
-/
def hasReader (d : Dispatcher α) (slot : Nat) : Bool := (d.slots[slot]?).any (·.hasReader)

def unsubscribe (d : Dispatcher α) (slot : Nat) : Dispatcher α :=
  { d with slots := d.slots.modify slot fun s => { s with hasReader := false } }

/--
Looks for a new value of a subscription.
-/
def poll (d : Dispatcher α) (slot : Nat) : Dispatcher α × Polled α :=
  match d.slots[slot]? with
  | some s => ({ d with slots := d.slots.set slot s.poll.1 }, s.poll.2)
  | none => (d, .closed)

def latest? (d : Dispatcher α) (slot : Nat) : Option α := (d.slots[slot]?).bind (·.value)

/--
A start gets its turn. If the dispatcher runs, there is nothing to do.
-/
def acquire (d : Dispatcher α) (i : Nat) : Dispatcher α :=
  match d.starts[i]?, d.holder with
  | some .waiting, none =>
    if d.started then
      { d with starts := d.starts.set i (.done false (.ok ())) }
    else
      { d with starts := d.starts.set i .opening, holder := some i }
  | _, _ => d

/--
The feed of a start is open, or could not be opened. In the second case the dispatcher is as it
was, and the next start tries again.
-/
def opened (d : Dispatcher α) (i : Nat) (r : Except ConfigError Nat) :
    Dispatcher α × List Event :=
  match d.starts[i]? with
  | some .opening =>
    match r with
    | .ok feed =>
      ({ d with
        starts := d.starts.set i (.done true (.ok ())), holder := none, started := true
        ended := false, loops := d.loops ++ [⟨feed, .running⟩] }, [])
    | .error e =>
      ({ d with starts := d.starts.set i (.done true (.error (.watch d.key e))), holder := none },
        [.warn "start watching failed" [("key", d.key), ("error", e.message)]])
  | _ => (d, [])

/--
The event for a subscription that was found closed.
-/
def removal (d : Dispatcher α) (id : Nat) : Event :=
  .warn "subscriber closed, removed" [("key", d.key), ("subscriber", toString id)]

/--
Hands a value to all registered subscriptions, and forgets those whose subscriber is gone.
-/
def dispatch (d : Dispatcher α) (x : α) : Dispatcher α × List Event :=
  let (kept, gone) := d.registered.partition fun r => d.hasReader r.2
  ({ d with
    slots := kept.foldl (fun slots r => slots.modify r.2 (·.put x)) d.slots
    registered := kept
    tallies := { d.tallies with
      updated := d.tallies.updated + kept.length
      closed := d.tallies.closed + gone.length } },
    gone.map fun r => d.removal r.1)

/--
A loop takes a value out of its feed and hands it on.
-/
def receive (d : Dispatcher α) (i : Nat) : Dispatcher α × List Event :=
  match d.loops[i]? with
  | some ⟨feed, .running⟩ =>
    match d.channels[feed]? with
    | some c =>
      match c.receive with
      | (c, .value x) => { d with channels := d.channels.set feed c }.dispatch x
      | _ => (d, [])
    | none => (d, [])
  | _ => (d, [])

/--
Whether nothing will come out of a channel any more.
-/
def isExhausted (d : Dispatcher α) (channel : Nat) : Bool :=
  (d.channels[channel]?).all fun c => c.queue.isEmpty && !c.hasSender

/--
A loop sees the end of its feed.
-/
def finish (d : Dispatcher α) (i : Nat) : Dispatcher α × List Event :=
  match d.loops[i]? with
  | some ⟨feed, .running⟩ =>
    if d.isExhausted feed then
      ({ d with loops := d.loops.set i ⟨feed, .ending⟩ },
        [.info "upstream watch closed" [("key", d.key)]])
    else
      (d, [])
  | _ => (d, [])

def release (d : Dispatcher α) : Dispatcher α :=
  { d with
    slots := d.registered.foldl
      (fun slots r => slots.modify r.2 fun s => { s with hasSource := false }) d.slots
    registered := [] }

/--
A loop that has seen the end of its feed clears the dispatcher, unless a start is waiting for a
feed.
-/
def clear (d : Dispatcher α) (i : Nat) : Dispatcher α :=
  match d.loops[i]?, d.holder with
  | some ⟨feed, .ending⟩, none =>
    { d.release with
      started := false, ended := true
      loops := d.loops.set i ⟨feed, .gone⟩
      channels := d.channels.modify feed Channel.dropReceiver }
  | _, _ => d

/--
Gives a handle up. With the last handle the subscriptions end, unless a loop is still there.
-/
def drop (d : Dispatcher α) (handle : Nat) : Dispatcher α :=
  let d := { d with handles := d.handles.set handle false }
  if d.handles.any id || d.loops.any (·.phase ≠ .gone) then d else d.release

/--
Does an action. Gives the events that it emits and, for a poll, its answer.
-/
def step (d : Dispatcher α) :
    DispatcherAction α → Dispatcher α × List Event × Option (Polled α)
  | .subscribe => (d.subscribe, [], none)
  | .unsubscribe slot => (d.unsubscribe slot, [], none)
  | .poll slot =>
    let (d, answer) := d.poll slot
    (d, [], some answer)
  | .start => ({ d with starts := d.starts ++ [.waiting] }, [], none)
  | .acquire i => (d.acquire i, [], none)
  | .opened i r =>
    let (d, es) := d.opened i r
    (d, es, none)
  | .makeChannel capacity => ({ d with channels := d.channels ++ [.empty capacity] }, [], none)
  | .send channel x =>
    ({ d with channels := d.channels.modify channel fun c => (c.send x).1 }, [], none)
  | .dropSender channel =>
    ({ d with channels := d.channels.modify channel Channel.dropSender }, [], none)
  | .receive i =>
    let (d, es) := d.receive i
    (d, es, none)
  | .finish i =>
    let (d, es) := d.finish i
    (d, es, none)
  | .clear i => (d.clear i, [], none)
  | .clone => ({ d with handles := d.handles ++ [true] }, [], none)
  | .drop handle => (d.drop handle, [], none)

def run (d : Dispatcher α) (as : List (DispatcherAction α)) : Dispatcher α :=
  as.foldl (fun d a => (d.step a).1) d

def inspect (d : Dispatcher α) : String :=
  Text.inspect "WatchDispatcher"
    [("key", Text.quote d.key), ("subscribers", toString d.subscriberCount)]

end Dispatcher

end Upkeep.Config
