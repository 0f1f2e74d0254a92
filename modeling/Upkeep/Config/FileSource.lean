import Upkeep.Config.Disk
import Upkeep.Config.FileItem
import Upkeep.Config.Hub
import Upkeep.Text.Inspect
import Upkeep.Text.Quoted

/-!
This module contains the source that keeps each configuration text in a file. Texts can be read, and
files can be watched. All who watch one key share a watcher, which takes the notices about the file
in order, reads the file, and hands what is new to all of them.

Reading a file takes time, so that calls go on in phases, between which anything may happen to the
disk, to other calls and to the watchers: see `FileAction`.
-/

namespace Upkeep.Config

/--
The watcher of a key: where the file is, what is known of it, the notices that have not been taken
yet, the one that is being handled with what the file read as, and who is told. It watches the
directory that the file was in when the watching began, wherever that directory is moved.
-/
structure Watcher where
  path : String
  entry : Disk.Entry
  state : FileState
  notices : List Notice
  pending : Option (Notice × Except Fault String)
  hub : Hub
  deriving Inhabited

/--
A watcher that knows the text of its file, and that nobody has joined yet.
-/
def Watcher.start (path : String) (entry : Disk.Entry) (content : String) : Watcher :=
  { path, entry, state := .present content, notices := [], pending := none, hub := .empty }

/--
A call, by how far it has come: nothing is done, the file was read, or the call is over. `channel`
is where the one who watches gets the news.
-/
inductive FileCall where
  | get (key : String)
  | getRead (key path : String) (reading : Except Fault String)
  | got (r : Except ConfigError Response)
  | watch (key : String)
  | watchRead (key path : String) (reading : Except ConfigError String)
  | watching (channel : Except ConfigError Nat)

/--
Whether a call has got its answer.
-/
def FileCall.isOver : FileCall → Bool
  | .got _ | .watching _ => true
  | _ => false

/--
The source with the disk that it reads and the channels that it sends to. `cache` holds the last
text that was read for each key.
-/
structure FileSource where
  disk : Disk
  items : Dict String String
  cache : Dict String String
  watchers : Dict String Watcher
  isAlive : Bool
  calls : List FileCall
  channels : List (Channel Response)
  deriving Inhabited

/--
Something that happens to the source. A watcher takes a notice and looks at the file, and handles the
notice after that. A call that has read its file comes to an end with a registration for the notices
about it, which only the first call to watch a file asks for.
-/
inductive FileAction where
  | change (c : DiskChange)
  | notify (key : String) (n : Notice)
  | get (key : String)
  | watch (key : String)
  | read (call : Nat)
  | finish (call : Nat) (registration : Disk.Registration)
  | look (key : String)
  | handle (key : String)
  | receive (channel : Nat)
  | dropReceiver (channel : Nat)
  | drop

namespace FileSource

def sourceName : String := "file"

def channelCapacity : Nat := 10

/--
A source for a list of items. Of two items with one key the later is taken.
-/
def start (disk : Disk) (channels : List (Channel Response)) (items : Dict String String) :
    FileSource :=
  { disk, items, cache := .empty, watchers := .empty, isAlive := true, calls := [], channels }

def itemsOf (items : List FileItem) : Dict String String :=
  Dict.ofList (items.map fun i => (i.key, i.path))

def path (w : FileSource) (key : String) : Except ConfigError String :=
  match w.items.get? key with
  | some p => .ok p
  | none => .error (.keyNotFound sourceName key)

/--
The number of events that were missed by those who watch a key.
-/
def missed (w : FileSource) (key : String) : Nat :=
  ((w.watchers.get? key).map (·.hub.missed)).getD 0

def answer? (w : FileSource) (call : Nat) : Option (Except ConfigError Response) :=
  match w.calls[call]? with
  | some (.got r) => some r
  | _ => none

/--
What a call to watch a file answered.
-/
def channel? (w : FileSource) (call : Nat) : Option (Except ConfigError Nat) :=
  match w.calls[call]? with
  | some (.watching r) => some r
  | _ => none

def setCall (w : FileSource) (i : Nat) (c : FileCall) : FileSource :=
  { w with calls := w.calls.set i c }

def read (w : FileSource) (i : Nat) : FileSource :=
  match w.calls[i]? with
  | some (.get key) =>
    match w.path key with
    | .ok p => w.setCall i (.getRead key p (w.disk.read p))
    | .error e => w.setCall i (.got (.error e))
  | some (.watch key) =>
    match w.path key with
    | .ok p => w.setCall i (.watchRead key p (w.disk.readFile p))
    | .error e => w.setCall i (.watching (.error e))
  | _ => w

/--
Ends a call for a text. What could not be read is taken from the cache.
-/
def finishGet (w : FileSource) (i : Nat) (key path : String) (reading : Except Fault String) :
    FileSource × List Event :=
  match reading with
  | .ok content =>
    ({ w.setCall i (.got (.ok ⟨content, .null⟩)) with cache := w.cache.insert key content }, [])
  | .error e =>
    match w.cache.get? key with
    | some cached =>
      (w.setCall i (.got (.ok ⟨cached, .null⟩)),
        [.warn "read config file failed, serving cached content"
          [("key", key), ("path", path), ("error", e.text)]])
    | none => (w.setCall i (.got (.error (.io path e))), [])

/--
A new channel joins a watcher, which is that of a key from then on. The call answers the channel.
-/
def join (w : FileSource) (i : Nat) (key : String) (x : Watcher) : FileSource :=
  let channel := w.channels.length
  { w.setCall i (.watching (.ok channel)) with
    channels := w.channels ++ [Channel.empty channelCapacity]
    watchers := w.watchers.insert key { x with hub := x.hub.join channel } }

/--
Ends a call to watch a file that is there. If the key has no watcher, one is made, unless nobody can
be told of what happens to the file.
-/
def finishWatch (w : FileSource) (i : Nat) (key path content : String)
    (registration : Disk.Registration) : FileSource × List Event :=
  match w.watchers.get? key, registration with
  | some x, _ => (w.join i key x, [])
  | none, .ok entry =>
    ({ w.join i key (.start path entry content) with cache := w.cache.insert key content },
      [.info "start watching config file" [("key", key), ("path", path)]])
  | none, .error cause => (w.setCall i (.watching (.error (.notify path cause))), [])

/--
Ends a call whose file was read.
-/
def finish (w : FileSource) (i : Nat) (registration : Disk.Registration) :
    FileSource × List Event :=
  match w.calls[i]? with
  | some (.getRead key path reading) => w.finishGet i key path reading
  | some (.watchRead key path (.ok content)) => w.finishWatch i key path content registration
  | some (.watchRead _ _ (.error e)) => (w.setCall i (.watching (.error e)), [])
  | _ => (w, [])

/--
Puts a notice into the queue of the watcher of a key.
-/
def notify (w : FileSource) (key : String) (n : Notice) : FileSource :=
  { w with watchers := w.watchers.modify key fun x => { x with notices := x.notices ++ [n] } }

/--
What is told about a directory, for one who watches it. The directory itself goes by the name that
the path of the file calls it.
-/
def noticeFor (x : Watcher) (n : DiskNotice) : Notice :=
  .change (n.entry.orElse fun _ => x.entry.directoryName).toList n.kind

/--
Changes the disk. All who watch the directory get a notice.
-/
def change (w : FileSource) (c : DiskChange) : FileSource :=
  let (disk, notices) := w.disk.change c
  let interested := w.watchers.entries.flatMap fun x =>
    (notices.filter (·.directory = x.2.entry.directory)).map fun n => (x.1, noticeFor x.2 n)
  interested.foldl (fun w n => w.notify n.1 n.2) { w with disk }

/--
The watcher of a key takes its next notice and reads the file, unless it is still handling another.
-/
def look (w : FileSource) (key : String) : FileSource :=
  match w.watchers.get? key with
  | some x =>
    match x.pending, x.notices with
    | none, n :: rest =>
      let x := { x with notices := rest, pending := some (n, w.disk.read x.path) }
      { w with watchers := w.watchers.insert key x }
    | _, _ => w
  | none => w

/--
The watcher of a key handles the notice that it has taken.
-/
def handle (w : FileSource) (key : String) : FileSource × List Event :=
  match w.watchers.get? key with
  | some x =>
    match x.pending with
    | none => (w, [])
    | some (n, reading) =>
      let news := x.state.handle key x.path x.entry.name n reading
      let cache :=
        match news.content with
        | some content => w.cache.insert key content
        | none => w.cache
      let (hub, channels, events) :=
        match news.response with
        | some r => x.hub.publish key r w.channels
        | none => (x.hub, w.channels, [])
      ({ w with
        cache, channels
        watchers := w.watchers.insert key { x with state := news.state, pending := none, hub } },
        news.events ++ events)
  | none => (w, [])

/--
A call begins, if the source has not been given up.
-/
def begin (w : FileSource) (c : FileCall) : FileSource :=
  if w.isAlive then { w with calls := w.calls ++ [c] } else w

/--
Whether all calls are over, and no watcher is handling a notice.
-/
def isIdle (w : FileSource) : Bool :=
  w.calls.all FileCall.isOver && w.watchers.entries.all (·.2.pending.isNone)

/--
The source is given up. All watchers end, and with them the channels of those who watch. While a
call goes on, or a notice is being handled, the source cannot be given up.
-/
def drop (w : FileSource) : FileSource × List Event :=
  if w.isIdle then
    let members := w.watchers.entries.flatMap fun x => x.2.hub.members
    ({ w with
      isAlive := false
      watchers := .empty
      channels := members.foldl (fun cs i => cs.modify i Channel.dropSender) w.channels },
      w.watchers.keys.map fun key =>
        .debug "config source dropped, stop watching" [("key", key)])
  else
    (w, [])

def step (w : FileSource) : FileAction → FileSource × List Event
  | .change c => (w.change c, [])
  | .notify key n => (w.notify key n, [])
  | .get key => (w.begin (.get key), [])
  | .watch key => (w.begin (.watch key), [])
  | .read i => (w.read i, [])
  | .finish i registration => w.finish i registration
  | .look key => (w.look key, [])
  | .handle key => w.handle key
  | .receive i => ({ w with channels := w.channels.modify i fun c => c.receive.1 }, [])
  | .dropReceiver i => ({ w with channels := w.channels.modify i Channel.dropReceiver }, [])
  | .drop => w.drop

def run (w : FileSource) (as : List FileAction) : FileSource × List Event :=
  as.foldl (fun (w, es) a =>
    let (w, more) := w.step a
    (w, es ++ more)) (w, [])

/--
Handles all notices of all watchers.
-/
def settle (w : FileSource) : FileSource × List Event :=
  w.run (w.watchers.entries.flatMap fun x =>
    x.2.notices.flatMap fun _ => [.look x.1, .handle x.1])

/--
The text of the source for inspection, its items in the order of their keys.
-/
def inspect (w : FileSource) : String :=
  let items := w.items.entries.mergeSort fun a b => decide (a.1 ≤ b.1)
  Text.inspectPart "FileConfig"
    [("items", Text.inspectMap (items.map fun i => (Text.quote i.1, Text.quotePath i.2)))]

end FileSource

end Upkeep.Config
