import Upkeep.Capacity
import Upkeep.Config.Scene
import Upkeep.Metrics.Recorder

/-!
This module contains scripts: steps that are done in a scene one after the other. The loops of the
dispatcher and the followers take turns, in the order in which they were woken, whenever a step lets
everything settle.
-/

namespace Upkeep.Config

/--
Who takes turns: a loop of the dispatcher, or a follower.
-/
inductive Runner where
  | loop (i : Nat)
  | follower (i : Nat)
  deriving DecidableEq, Inhabited

/--
A step of a script. Subscriptions, bindings, followers, receivers and handles of the dispatcher are
given by their numbers, and feeds by the order in which they were opened.
-/
inductive Step where
  | subscribe
  | unsubscribe (slot : Nat)
  | start (feed : Except ConfigError Nat)
  | send (feed : Nat) (r : Response)
  | finish (feed : Nat)
  | settle
  | changed (slot : Nat)
  | latest (slot : Nat)
  | subscribers
  | counters
  | inspect
  | clone
  | drop (handle : Nat)
  | bind (key : String) (encoding : Encoding) (shape : Shape) (text : String)
  | share (binding : Nat)
  | follow (binding slot : Nat)
  | isOver (follower : Nat)
  | apply (binding : Nat) (r : Response)
  | load (binding : Nat)
  | inspectBinding (binding : Nat)
  | change (c : DiskChange)
  | addItem (key path : String)
  | readItems (text : String)
  | release
  | inspectFiles
  | nameFiles
  | get (key : String)
  | put
  | delete
  | watch (key : String)
  | missed (key : String)
  | receive (receiver count : Nat)
  | receiveUntil (receiver : Nat) (value : String)
  | receiveQueued (receiver : Nat)
  | dropReceiver (receiver : Nat)
  | startFile
  | loadFile (key : String) (encoding : Encoding) (shape : Shape)

/--
What a step answers. A script that crashed goes no further.
-/
inductive Answer where
  | done
  | accepted
  | number (n : Nat)
  | rejected (e : ConfigError)
  | unreadable
  | started (opened : Bool) (r : Except ConfigError Unit)
  | sent (s : Option Sent)
  | polled (p : Polled Response)
  | polls (ps : List (Polled Response))
  | response (r : Option Response)
  | counters (cs : List (String × Nat))
  | text (s : String)
  | flag (b : Bool)
  | setting (v : Setting)
  | crashed (f : CapacityFault)

/--
A script that is being done. Metrics are recorded under a scope, if there is one. `feeds` are the
channels whose sender the script holds, `receivers` those whose receiver it holds, and `shares` are
the bindings that its numbers stand for. `ready` are those who wait for their turn, and `later`
those who gave their turn up before they were done. `patience` is how often the script may still
look for something and find it before it has to let others go on.
-/
structure Session where
  scene : Scene
  scope : Option Metrics.Scope
  feeds : List (Option Nat)
  receivers : List Nat
  shares : List Nat
  ready : List Runner
  later : List Runner
  patience : Nat
  events : List Event

namespace Session

/--
How many things a loop, or the script, may take in one turn.
-/
def turnLength : Nat := 128

/--
How many turns others take before the script has a say again.
-/
def roundLength : Nat := 61

def start (key : String) (scope : Option Metrics.Scope) : Session :=
  { scene := .start key, scope, feeds := [], receivers := [], shares := [], ready := []
    later := [], patience := turnLength, events := [] }

/--
Puts runners at the end of the queue. One that is in it keeps its place.
-/
def enqueue (runners : List Runner) (s : Session) : Session :=
  { s with ready := runners.foldl (fun q r => if q.contains r then q else q ++ [r]) s.ready }

/--
Lets something happen in the scene, and wakes the followers that can go on.
-/
def actInTurn (a : SceneAction) (s : Session) : Session :=
  let (scene, events) := s.scene.step a
  let s := { s with scene, events := s.events ++ events }
  s.enqueue (s.scene.wokenFollowers.map .follower)

/--
Lets something happen in the scene, and wakes all who can go on.
-/
def act (a : SceneAction) (s : Session) : Session :=
  let s := s.actInTurn a
  s.enqueue (s.scene.wokenLoops.map .loop)

/--
A turn of a loop. It takes values until there is none, or until it has to give its turn up. When
nothing will come any more, it clears the dispatcher.
-/
def runLoop (i : Nat) : Nat → Session → Session
  | 0, s => { s with later := s.later ++ [.loop i] }
  | fuel + 1, s =>
    match s.scene.dispatcher.loops[i]? with
    | some ⟨feed, .running⟩ =>
      match s.scene.channels[feed]? with
      | some c =>
        if !c.queue.isEmpty then runLoop i fuel (s.actInTurn (.dispatcher (.receive i)))
        else if c.hasSender then s
        else runLoop i fuel (s.actInTurn (.dispatcher (.finish i)))
      | none => s
    | some ⟨_, .ending⟩ => s.actInTurn (.dispatcher (.clear i))
    | _ => s

/--
A turn of a runner. A follower looks at its slot a second time, which by then is empty or closed.
-/
def turn (r : Runner) (s : Session) : Session :=
  match r with
  | .loop i => runLoop i turnLength s
  | .follower i => (s.actInTurn (.turn i)).actInTurn (.turn i)

/--
A bound for the number of turns until everything has settled.
-/
def turnBound (s : Session) : Nat :=
  let queued := s.scene.channels.foldl (fun n c => n + c.queue.length) 0
  (queued + s.scene.dispatcher.loops.length + 2) * (s.scene.followers.length + 2) + s.ready.length

def takeTurns : Nat → Session → Session
  | 0, s => s
  | n + 1, s =>
    match s.ready with
    | [] => s
    | r :: rest => takeTurns n (turn r { s with ready := rest })

/--
Lets others go on. Those who gave their turn up are ready again after that.
-/
def round (s : Session) : Session :=
  let s := takeTurns roundLength s
  { s with later := [] }.enqueue s.later

/--
Lets others go on until none is ready.
-/
def settle (s : Session) : Session := { go s.turnBound s with patience := turnLength }
where
  go : Nat → Session → Session
    | 0, s => s
    | fuel + 1, s => if s.ready.isEmpty then s else go fuel s.round

/--
Takes something that is there, if need be after others have gone on.
-/
def take (s : Session) : Session :=
  let s := if s.patience = 0 then { s.round with patience := turnLength } else s
  { s with patience := s.patience - 1 }

/--
Starts the dispatcher. `opening` ends the start if the dispatcher did not run.
-/
def startWith (opening : Nat → Session → Session) (s : Session) : Session × Answer :=
  let s := s.take
  let i := s.scene.dispatcher.starts.length
  let s := (s.act (.dispatcher .start)).act (.dispatcher (.acquire i))
  let s : Session :=
    match s.scene.dispatcher.starts[i]? with
    | some .opening => opening i s
    | _ => s
  match s.scene.dispatcher.starts[i]? with
  | some (.done true (.ok ())) =>
    (s.enqueue [.loop (s.scene.dispatcher.loops.length - 1)], .started true (.ok ()))
  | some (.done opened r) => (s, .started opened r)
  | _ => (s, .done)

/--
Ends a start with a new channel, or with an error.
-/
def openFeed (feed : Except ConfigError Nat) (i : Nat) (s : Session) : Session :=
  match feed with
  | .ok capacity =>
    let channel := s.scene.channels.length
    let s := s.act (.dispatcher (.makeChannel capacity))
    let s := s.act (.dispatcher (.opened i (.ok channel)))
    { s with feeds := s.feeds ++ [some channel] }
  | .error e => s.act (.dispatcher (.opened i (.error e)))

/--
Starts the dispatcher with a new channel, or with an error. A channel that cannot be made crashes
the script when it is opened.
-/
def startFeed (feed : Except ConfigError Nat) (s : Session) : Session × Answer :=
  match s.startWith (openFeed feed), feed.toOption.bind CapacityFault.of? with
  | (s, .started true _), some f => (s, .crashed f)
  | result, _ => result

def send (feed : Nat) (r : Response) (s : Session) : Session × Answer :=
  match s.feeds[feed]?.join with
  | some channel =>
    (s.act (.dispatcher (.send channel r)),
      .sent ((s.scene.channels[channel]?).map fun c => (c.send r).2))
  | none => (s, .sent none)

def finish (feed : Nat) (s : Session) : Session :=
  match s.feeds[feed]?.join with
  | some channel =>
    { s.act (.dispatcher (.dropSender channel)) with feeds := s.feeds.set feed none }
  | none => s

/--
Looks for a new value of a subscription. Without patience, none is found.
-/
def changed (slot : Nat) (s : Session) : Session × Answer :=
  if s.patience = 0 then (s, .polled .pending)
  else
    match (s.scene.dispatcher.poll slot).2 with
    | .pending => (s, .polled .pending)
    | found => (s.take.act (.dispatcher (.poll slot)), .polled found)

def counters (s : Session) : List (String × Nat) :=
  let t := s.scene.dispatcher.tallies
  let all := [("watch.closed.cnt", t.closed), ("watch.new.cnt", t.made),
    ("watch.update.cnt", t.updated)]
  match s.scope with
  | some scope => (all.filter (·.2 ≠ 0)).map fun c => (scope.key c.1, c.2)
  | none => []

/--
Keeps a new binding, if it could be made.
-/
def bind (b : Except ConfigError Binding) (s : Session) : Session × Answer :=
  match b with
  | .ok b =>
    let s := { s with shares := s.shares ++ [s.scene.bindings.length] }
    (s.act (.bind b), .number (s.shares.length - 1))
  | .error e => (s, .rejected e)

def binding? (n : Nat) (s : Session) : Option Binding :=
  (s.shares[n]?).bind fun i => s.scene.bindings[i]?

/--
Ends a call to the source. One for a key that nobody configured is over already.
-/
def finishCall (i : Nat) (key : String) (s : Session) : Session :=
  match s.scene.files.path key with
  | .ok path => s.act (.file (.finish i (s.scene.files.disk.register path)))
  | .error _ => s

def get (key : String) (s : Session) : Session × Except ConfigError Response :=
  let i := s.scene.files.calls.length
  let s := ((s.act (.file (.get key))).act (.file (.read i))).finishCall i key
  (s, (s.scene.files.answer? i).getD (.error (.keyNotFound FileSource.sourceName key)))

/--
Watches a file of the source. Gives the number of the call.
-/
def watch (key : String) (s : Session) : Session × Nat :=
  let i := s.scene.files.calls.length
  (((s.act (.file (.watch key))).act (.file (.read i))).finishCall i key, i)

/--
Ends a start with the file for the key of the dispatcher.
-/
def openFile (i : Nat) (s : Session) : Session :=
  let (s, call) := s.watch s.scene.dispatcher.key
  s.act (.openFile i call)

def settleFiles (s : Session) : Session :=
  (s.scene.files.watchers.entries.flatMap fun x =>
    x.2.notices.flatMap fun _ => [SceneAction.file (.look x.1), .file (.handle x.1)]).foldl
      (fun s a => s.act a) s

def receive (receiver : Nat) (s : Session) : Session × Polled Response :=
  match s.receivers[receiver]? with
  | some channel =>
    (s.act (.file (.receive channel)),
      ((s.scene.channels[channel]?).map fun c => c.receive.2).getD .closed)
  | none => (s, .closed)

def queued (receiver : Nat) (s : Session) : Nat :=
  (((s.receivers[receiver]?).bind fun i => s.scene.channels[i]?).map fun c => c.queue.length).getD 0

/--
Receives a number of times. The answers end with the first that is no response.
-/
def receiveMany (receiver : Nat) : Nat → Session → Session × List (Polled Response)
  | 0, s => (s, [])
  | n + 1, s =>
    match s.receive receiver with
    | (s, .value r) =>
      let (s, rest) := receiveMany receiver n s
      (s, .value r :: rest)
    | (s, p) => (s, [p])

/--
Receives until there is a response with a given text, or until no response is there.
-/
def receiveUntil (receiver : Nat) (value : String) (s : Session) : Session × Polled Response :=
  go (s.queued receiver) s
where
  go : Nat → Session → Session × Polled Response
    | 0, s => s.receive receiver
    | n + 1, s =>
      match s.receive receiver with
      | (s, .value r) => if r.value = value then (s, .value r) else go n s
      | (s, p) => (s, p)

/--
Puts a source with other items in the place of the one before it.
-/
def renew (items : Dict String String) (s : Session) : Session := s.act (.renew items)

def perform (step : Step) (s : Session) : Session × Answer :=
  let d := s.scene.dispatcher
  match step with
  | .subscribe => (s.act (.dispatcher .subscribe), .number d.slots.length)
  | .unsubscribe slot => (s.act (.dispatcher (.unsubscribe slot)), .done)
  | .start feed => s.startFeed feed
  | .send feed r => s.send feed r
  | .finish feed => (s.finish feed, .done)
  | .settle => (s.settle, .done)
  | .changed slot => s.changed slot
  | .latest slot => (s, .response (d.latest? slot))
  | .subscribers => (s, .number d.subscriberCount)
  | .counters => (s, .counters s.counters)
  | .inspect => (s, .text d.inspect)
  | .clone => (s.act (.dispatcher .clone), .number d.handles.length)
  | .drop handle => (s.act (.dispatcher (.drop handle)), .done)
  | .bind key encoding shape text => s.bind (Binding.ofText key encoding shape text)
  | .share n =>
    ({ s with shares := s.shares ++ (s.shares[n]?).toList }, .number s.shares.length)
  | .follow n slot =>
    let i := s.scene.followers.length
    let s := s.act (.follow ((s.shares[n]?).getD s.scene.bindings.length) slot)
    (s.enqueue [.follower i], .number i)
  | .isOver i => (s, .flag ((s.scene.followers[i]?).any (·.isOver)))
  | .apply n r =>
    match s.shares[n]?, s.binding? n with
    | some i, some b =>
      (s.act (.apply i r),
        match (b.apply r).2.1 with
        | .ok replaced => .flag replaced
        | .error e => .rejected e)
    | _, _ => (s, .done)
  | .load n =>
    match s.binding? n with
    | some b => (s, .setting b.current)
    | none => (s, .done)
  | .inspectBinding n => (s, .text (((s.binding? n).map Binding.inspect).getD ""))
  | .change c => (s.act (.file (.change c)), .done)
  | .addItem key path =>
    (s.renew (s.scene.files.items.insert key (Disk.pathOf path)), .done)
  | .readItems text =>
    match FileItem.readAll? text with
    | some items => (s.renew (FileSource.itemsOf items), .done)
    | none => (s, .unreadable)
  | .release => (s.renew .empty, .done)
  | .inspectFiles => (s, .text s.scene.files.inspect)
  | .nameFiles => (s, .text FileSource.sourceName)
  | .get key =>
    match s.get key with
    | (s, .ok r) => (s, .response (some r))
    | (s, .error e) => (s, .rejected e)
  | .put => (s, .rejected (.unsupported FileSource.sourceName "put"))
  | .delete => (s, .rejected (.unsupported FileSource.sourceName "del"))
  | .watch key =>
    let (s, call) := s.watch key
    match s.scene.files.channel? call with
    | some (.ok channel) =>
      ({ s with receivers := s.receivers ++ [channel] }, .number s.receivers.length)
    | some (.error e) => (s, .rejected e)
    | none => (s, .done)
  | .missed key => (s, .number (s.scene.files.missed key))
  | .receive receiver count =>
    let (s, ps) := receiveMany receiver count s
    (s, .polls ps)
  | .receiveUntil receiver value =>
    let (s, p) := s.receiveUntil receiver value
    (s, .polls [p])
  | .receiveQueued receiver =>
    let (s, ps) := receiveMany receiver (s.queued receiver) s
    (s, .polls ps)
  | .dropReceiver receiver =>
    match s.receivers[receiver]? with
    | some channel => (s.act (.file (.dropReceiver channel)), .done)
    | none => (s, .done)
  | .startFile =>
    match s.startWith openFile with
    | (s, .started _ (.error e)) => (s, .rejected e)
    | (s, _) => (s, .accepted)
  | .loadFile key encoding shape =>
    let (s, answer) := s.get key
    s.bind (Binding.ofAnswer key encoding shape answer)

/--
What a step of a script left behind.
-/
structure Turnout where
  answer : Answer
  events : List Event

/--
Does a step, and gives what it left behind, its events in the order of their sort keys. If `settles`
holds, everything settles before the next step.
-/
def performAlone (settles : Bool) (step : Step) (s : Session) : Session × Turnout :=
  let (s, answer) := perform step { s with events := [] }
  (if settles then s.settleFiles.settle else s, { answer, events := Event.sort s.events })

end Session

end Upkeep.Config
