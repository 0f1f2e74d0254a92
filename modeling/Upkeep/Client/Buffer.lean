import Upkeep.Client.Record
import Upkeep.Config.Target
import Upkeep.Task.Recovery

/-!
This module contains the buffer of clients. It keeps one client for each name, builds a new one when
the target of the name has changed, and closes the old one some time later. Calls for clients may
overlap: each goes on phase by phase, and between its phases others may do anything. Replaced
clients are closed by teardowns, tasks that take their turns in the runtime; without a runtime they
are closed at once.
-/

namespace Upkeep.Client

open Config

inductive BuildOutcome where
  | built
  | refused (cause : Failure)
  | panicked (p : Task.Payload)
  deriving DecidableEq, Inhabited

inductive CloseOutcome where
  | closed
  | failed (cause : Failure)
  | panicked (p : Task.Payload)
  deriving DecidableEq, Inhabited

/--
What a call for a client ended with.
-/
inductive Result where
  | client (c : Connection)
  | error (e : ClientError)
  | panicked (p : Task.Payload)
  deriving DecidableEq, Inhabited

/--
A call for a client, by how far it has come:
* nothing is known but the name and options,
* the target is known, if there is one,
* the constructor is running, and `client` is what it will give,
* the client is built but nobody else knows of it,
* the client is in the buffer, and `previous` was taken out for it at the time `since`,
* the closer of the previous client is running,
* the call is over.
-/
inductive Call where
  | begun (name options : String)
  | resolved (name options : String) (target : Option Target)
  | constructing (name : String) (target : Target) (client : Connection)
  | built (name : String) (target : Target) (client : Connection)
  | displaced (name : String) (client : Connection) (previous : Record Connection) (since : Span)
  | closing (name : String) (client : Connection) (previous : Record Connection)
  | done (r : Result)
  deriving DecidableEq, Inhabited

/--
How far a teardown has come.
-/
inductive Phase where
  | ready
  | asleep (due : Span)
  | closing
  | finished
  | cancelled
  deriving DecidableEq, Inhabited

/--
The task that closes a client that was replaced at the time `since`.
-/
structure Teardown where
  name : String
  previous : Record Connection
  since : Span
  phase : Phase
  deriving DecidableEq, Inhabited

/--
Whether a teardown will not do anything any more.
-/
def Teardown.isOver (t : Teardown) : Bool := t.phase = .finished || t.phase = .cancelled

/--
Whether a teardown has yet to run its closer.
-/
def Teardown.isWaiting (t : Teardown) : Bool :=
  match t.phase with
  | .ready | .asleep _ => true
  | _ => false

/--
A teardown whose runtime was shut down. One that waits is cancelled, but a closer that is running
goes on to its end.
-/
def Teardown.cancel (t : Teardown) : Teardown :=
  if t.isWaiting then { t with phase := .cancelled } else t

/--
Where teardowns run: nowhere, in the runtime that is around a call, in a runtime that the buffer was
given, or in a given one that was shut down.
-/
inductive Runtime where
  | absent
  | around
  | given
  | stopped
  deriving DecidableEq, Inhabited

namespace Runtime

/--
Whether tasks can run.
-/
def isRunning (r : Runtime) : Bool := r = .around || r = .given

/--
The runtime after it was shut down. One that was around a call is not there any more.
-/
def shutdown : Runtime → Runtime
  | absent | around => absent
  | given | stopped => stopped

/--
The runtime for calls that come from inside a runtime. One that the buffer was given goes first.
-/
def enter : Runtime → Runtime
  | absent => around
  | r => r

/--
The runtime for calls that come from outside of any runtime.
-/
def leave : Runtime → Runtime
  | around => absent
  | r => r

end Runtime

/--
How often constructors were run, and closers ended well and badly.
-/
structure Tallies where
  updates : Nat
  closed : Nat
  failed : Nat
  deriving DecidableEq, Inhabited

/--
A client that was handed to its closer.
-/
structure Closing where
  time : Span
  client : Connection
  deriving DecidableEq, Inhabited

/--
A buffer with everything around it: the table of targets, the calls and teardowns that there ever
were, the clock, and what was handed to closers. `registered` are the teardowns that the buffer
knows of. A drain waits for the teardowns that it has taken over from there, and is over when it
finds none.
-/
structure Buffer where
  table : TargetTable
  records : Dict String (Record Connection)
  calls : List Call
  teardowns : List Teardown
  registered : List Nat
  drains : List (Option (List Nat))
  tallies : Tallies
  nextId : Nat
  clock : Span
  runtime : Runtime
  closings : List Closing
  deriving Inhabited

inductive Action where
  | edit (table : TargetTable)
  | begin (name options : String)
  | proceed (call : Nat)
  | construct (call : Nat) (o : BuildOutcome)
  | closeNow (call : Nat) (o : CloseOutcome)
  | turn (task : Nat)
  | closeLater (task : Nat) (o : CloseOutcome)
  | prune
  | drain
  | redrain (drain : Nat)
  | abandon (drain : Nat)
  | pass (time : Span)
  | shutdown
  | enter
  | leave

namespace Buffer

/--
A buffer without clients at the time zero.
-/
def start (runtime : Runtime) : Buffer :=
  { table := .empty, records := .empty, calls := [], teardowns := [], registered := [], drains := []
    tallies := ⟨0, 0, 0⟩, nextId := 0, clock := .zero, runtime, closings := [] }

def record? (b : Buffer) (name : String) : Option (Record Connection) := b.records.get? name

/--
The target for which the client of a name was built.
-/
def currentTarget? (b : Buffer) (name : String) : Option String :=
  (b.record? name).map (·.target)

def size (b : Buffer) : Nat := b.records.size

def setCall (b : Buffer) (i : Nat) (c : Call) : Buffer := { b with calls := b.calls.set i c }

def setPhase (b : Buffer) (i : Nat) (p : Phase) : Buffer :=
  { b with teardowns := b.teardowns.modify i fun t => { t with phase := p } }

def isOver (b : Buffer) (i : Nat) : Bool := (b.teardowns[i]?).all Teardown.isOver

/--
Forgets the teardowns that are over.
-/
def prune (b : Buffer) : Buffer :=
  { b with registered := b.registered.filter fun i => !b.isOver i }

/--
The number of teardowns that the buffer knows of and that are not over.
-/
def pending (b : Buffer) : Nat := b.prune.registered.length

/--
Reads the target of the name. A blank target is none.
-/
def resolve (b : Buffer) (i : Nat) (name options : String) : Buffer :=
  b.setCall i (.resolved name options ((b.table.get? name).filter Target.isConfigured))

/--
Goes on without a target: the client that is there will do.
-/
def serve (b : Buffer) (i : Nat) (name : String) : Buffer × List Event :=
  match b.record? name with
  | some r =>
    (b.setCall i (.done (.client r.client)),
      [.debug "target missing, serving previous client" [("name", name), ("target", r.target)]])
  | none => (b.setCall i (.done (.error (.notConfigured name))), [])

/--
Goes on with a target: a client that was built for it will do, otherwise the constructor is run.
The constructor reads the target for itself.
-/
def compare (b : Buffer) (i : Nat) (name options : String) (target : Target) : Buffer :=
  match (b.record? name).filter (·.target = target.address) with
  | some r => b.setCall i (.done (.client r.client))
  | none =>
    let seen := ((b.table.get? name).map (·.address)).getD ""
    let client : Connection := { id := b.nextId, name, target := seen, options }
    { b.setCall i (.constructing name target client) with
      nextId := b.nextId + 1
      tallies := { b.tallies with updates := b.tallies.updates + 1 } }

/--
Takes notice of the end of a constructor.
-/
def construct (b : Buffer) (i : Nat) (o : BuildOutcome) : Buffer × List Event :=
  match b.calls[i]? with
  | some (.constructing name target client) =>
    match o with
    | .built => (b.setCall i (.built name target client), [])
    | .refused cause =>
      (b.setCall i (.done (.error (.constructionFailed name cause))),
        [.warn "build client failed"
          [("name", name), ("target", target.address), ("error", cause.text)]])
    | .panicked p => (b.setCall i (.done (.panicked p)), [])
  | _ => (b, [])

/--
Puts a new client into the buffer, in the place of the previous one.
-/
def swap (b : Buffer) (i : Nat) (name : String) (target : Target) (client : Connection) :
    Buffer × List Event :=
  let next := { b with
    records := b.records.insert name (Record.make client target.address target.timeout) }
  match b.record? name with
  | some previous =>
    (next.setCall i (.displaced name client previous b.clock),
      [.info "client target changed, previous client scheduled for close"
        [("name", name), ("from", previous.target), ("grace", previous.grace.text)]])
  | none => (next.setCall i (.done (.client client)), [.info "client built" [("name", name)]])

def handOver (b : Buffer) (client : Connection) : Buffer :=
  { b with closings := b.closings ++ [⟨b.clock, client⟩] }

/--
Sees to it that the previous client is closed: later, or at once if there is no runtime. A given
runtime that was shut down cancels the teardown.
-/
def schedule (b : Buffer) (i : Nat) (name : String) (client : Connection)
    (previous : Record Connection) (since : Span) : Buffer × List Event :=
  match b.runtime with
  | .absent =>
    ((b.handOver previous.client).setCall i (.closing name client previous),
      [.error "no tokio runtime to defer close, closing previous client immediately"
        [("name", name), ("target", previous.target)]])
  | r =>
    let phase := if r.isRunning then Phase.ready else .cancelled
    let task : Teardown := { name, previous, since, phase }
    let b := b.prune
    ({ b.setCall i (.done (.client client)) with
      teardowns := b.teardowns ++ [task]
      registered := b.registered ++ [b.teardowns.length] }, [])

def proceed (b : Buffer) (i : Nat) : Buffer × List Event :=
  match b.calls[i]? with
  | some (.begun name options) => (b.resolve i name options, [])
  | some (.resolved name _ none) => b.serve i name
  | some (.resolved name options (some target)) => (b.compare i name options target, [])
  | some (.built name target client) => b.swap i name target client
  | some (.displaced name client previous since) => b.schedule i name client previous since
  | _ => (b, [])

/--
The tallies and events for the end of a closer. A panic is caught under a label.
-/
def closed (b : Buffer) (name label : String) (previous : Record Connection) (o : CloseOutcome) :
    Buffer × List Event :=
  let fields := [("name", name), ("target", previous.target)]
  match o with
  | .closed =>
    ({ b with tallies := { b.tallies with closed := b.tallies.closed + 1 } },
      [.info "previous client closed" fields])
  | .failed cause =>
    ({ b with tallies := { b.tallies with failed := b.tallies.failed + 1 } },
      [.error "close previous client failed" (fields ++ [("error", cause.text)])])
  | .panicked p =>
    ({ b with tallies := { b.tallies with failed := b.tallies.failed + 1 } },
      [Task.Recovery.event ⟨label, p.message⟩])

/--
Takes notice of the end of a closer that a call has run.
-/
def closeNow (b : Buffer) (i : Nat) (o : CloseOutcome) : Buffer × List Event :=
  match b.calls[i]? with
  | some (.closing name client previous) =>
    (b.setCall i (.done (.client client))).closed name name previous o
  | _ => (b, [])

def startClosing (b : Buffer) (i : Nat) (t : Teardown) : Buffer :=
  (b.handOver t.previous.client).setPhase i .closing

/--
Gives a teardown its turn: it sleeps for the grace of its client, and then starts the closer.
-/
def turn (b : Buffer) (i : Nat) : Buffer :=
  match b.teardowns[i]? with
  | some t =>
    match t.phase with
    | .ready =>
      if t.previous.grace = .zero then b.startClosing i t
      else b.setPhase i (.asleep (b.clock + t.previous.grace))
    | .asleep due => if due ≤ b.clock then b.startClosing i t else b
    | _ => b
  | none => b

/--
Takes notice of the end of a closer that a teardown has run.
-/
def closeLater (b : Buffer) (i : Nat) (o : CloseOutcome) : Buffer × List Event :=
  match b.teardowns[i]? with
  | some t =>
    if t.phase = .closing then
      (b.setPhase i .finished).closed t.name ("client.teardown." ++ t.name) t.previous o
    else
      (b, [])
  | none => (b, [])

/--
What a drain waits for, if it takes over all registered teardowns now.
-/
def nextBatch (b : Buffer) : Option (List Nat) :=
  if b.registered.isEmpty then none else some b.registered

def drain (b : Buffer) : Buffer :=
  { b with drains := b.drains ++ [b.nextBatch], registered := [] }

/--
Lets a drain go on. If all teardowns it waits for are over, it takes over those that have been
registered since.
-/
def redrain (b : Buffer) (d : Nat) : Buffer × List Event :=
  match b.drains[d]? with
  | some (some batch) =>
    if batch.all b.isOver then
      let aborted := batch.filter fun i => (b.teardowns[i]?).any (·.phase = .cancelled)
      ({ b with drains := b.drains.set d b.nextBatch, registered := [] },
        aborted.map fun _ => .error "client teardown task aborted" [])
    else
      (b, [])
  | _ => (b, [])

/--
Gives a drain up. What it waits for goes on, but nobody waits for it.
-/
def abandon (b : Buffer) (d : Nat) : Buffer := { b with drains := b.drains.set d none }

def shutdown (b : Buffer) : Buffer :=
  { b with runtime := b.runtime.shutdown, teardowns := b.teardowns.map Teardown.cancel }

def step (b : Buffer) : Action → Buffer × List Event
  | .edit table => ({ b with table }, [])
  | .begin name options => ({ b with calls := b.calls ++ [.begun name options] }, [])
  | .proceed i => b.proceed i
  | .construct i o => b.construct i o
  | .closeNow i o => b.closeNow i o
  | .turn i => (b.turn i, [])
  | .closeLater i o => b.closeLater i o
  | .prune => (b.prune, [])
  | .drain => (b.drain, [])
  | .redrain d => b.redrain d
  | .abandon d => (b.abandon d, [])
  | .pass time => ({ b with clock := b.clock + time }, [])
  | .shutdown => (b.shutdown, [])
  | .enter => ({ b with runtime := b.runtime.enter }, [])
  | .leave => ({ b with runtime := b.runtime.leave }, [])

def run (b : Buffer) (as : List Action) : Buffer := as.foldl (fun b a => (b.step a).1) b

end Buffer

end Upkeep.Client
