import Upkeep.Config.Binding
import Upkeep.Config.Dispatcher
import Upkeep.Config.FileSource

/-!
This module contains scenes, in which everything about configuration plays together: a file source,
a dispatcher, bindings, and followers, which carry the values of a subscription over into a binding.
What happens in a scene is a series of actions, in any order. The channels of the source are those
of the dispatcher, so that a watched file may be the feed of the dispatcher.
-/

namespace Upkeep.Config

/--
A follower. It takes the values of a slot for a binding until the slot is closed.
-/
structure Follower where
  binding : Nat
  slot : Nat
  isOver : Bool
  deriving DecidableEq, Inhabited

/--
A file source, a dispatcher, bindings, and followers between the last two.
-/
structure Scene where
  dispatcher : Dispatcher Response
  files : FileSource
  bindings : List Binding
  followers : List Follower

/--
Something that happens in a scene. `openFile` ends a start of the dispatcher with the answer that a
call to the source has got, `renew` puts another source in the place of the one before it, and
`turn` lets a follower look at its slot once.
-/
inductive SceneAction where
  | dispatcher (a : DispatcherAction Response)
  | file (a : FileAction)
  | openFile (start call : Nat)
  | renew (items : Dict String String)
  | bind (b : Binding)
  | apply (binding : Nat) (r : Response)
  | follow (binding slot : Nat)
  | turn (follower : Nat)

namespace Scene

/--
A scene with a dispatcher for a key, and a source without items.
-/
def start (key : String) : Scene :=
  { dispatcher := .make key, files := .start .empty [] .empty, bindings := [], followers := [] }

def channels (s : Scene) : List (Channel Response) := s.dispatcher.channels

def stepDispatcher (s : Scene) (a : DispatcherAction Response) : Scene × List Event :=
  let (dispatcher, events, _) := s.dispatcher.step a
  ({ s with dispatcher }, events)

def stepFile (s : Scene) (a : FileAction) : Scene × List Event :=
  let (files, events) := { s.files with channels := s.channels }.step a
  ({ s with files, dispatcher := { s.dispatcher with channels := files.channels } }, events)

/--
Puts a source with other items in the place of the one before it, which is given up.
-/
def renew (s : Scene) (items : Dict String String) : Scene × List Event :=
  if s.files.isIdle then
    let (s, events) := s.stepFile .drop
    ({ s with files := .start s.files.disk s.channels items }, events)
  else
    (s, [])

def apply (s : Scene) (binding : Nat) (r : Response) : Scene × List Event :=
  match s.bindings[binding]? with
  | some b =>
    let (b, _, events) := b.apply r
    ({ s with bindings := s.bindings.set binding b }, events)
  | none => (s, [])

/--
A follower looks at its slot. What is new is taken in by its binding. If the slot is closed, the
follower gives it up.
-/
def turn (s : Scene) (i : Nat) : Scene × List Event :=
  match s.followers[i]? with
  | some ⟨binding, slot, false⟩ =>
    match s.dispatcher.poll slot, s.bindings[binding]? with
    | (dispatcher, .value r), some b =>
      let (b, events) := b.follow r
      ({ s with dispatcher, bindings := s.bindings.set binding b }, events)
    | (_, .closed), _ =>
      ({ s with
        dispatcher := s.dispatcher.unsubscribe slot
        followers := s.followers.set i ⟨binding, slot, true⟩ }, [])
    | _, _ => (s, [])
  | _ => (s, [])

/--
Lets something happen in a scene. Gives the events that are emitted.
-/
def step (s : Scene) : SceneAction → Scene × List Event
  | .dispatcher a => s.stepDispatcher a
  | .file a => s.stepFile a
  | .openFile start call =>
    match s.files.channel? call with
    | some r => s.stepDispatcher (.opened start r)
    | none => (s, [])
  | .renew items => s.renew items
  | .bind b => ({ s with bindings := s.bindings ++ [b] }, [])
  | .apply binding r => s.apply binding r
  | .follow binding slot =>
    ({ s with followers := s.followers ++ [⟨binding, slot, false⟩] }, [])
  | .turn i => s.turn i

def run (s : Scene) (as : List SceneAction) : Scene :=
  as.foldl (fun s a => (s.step a).1) s

/--
The loops that can go on: something is in their feed, or nothing will be there any more.
-/
def wokenLoops (s : Scene) : List Nat :=
  (List.range s.dispatcher.loops.length).filter fun i =>
    match s.dispatcher.loops[i]? with
    | some ⟨feed, .running⟩ =>
      (s.channels[feed]?).any fun c => !c.queue.isEmpty || !c.hasSender
    | _ => false

/--
The followers that can go on: there is something new in their slots, or the slot is closed.
-/
def wokenFollowers (s : Scene) : List Nat :=
  (List.range s.followers.length).filter fun i =>
    match s.followers[i]? with
    | some ⟨_, slot, false⟩ => (s.dispatcher.slots[slot]?).any fun x => x.unseen || !x.hasSource
    | _ => false

end Scene

end Upkeep.Config
