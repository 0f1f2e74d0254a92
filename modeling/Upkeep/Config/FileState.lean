import Upkeep.Config.Error
import Upkeep.Config.Response
import Upkeep.Event

/-!
This module contains the state of a watched file as its watcher knows it, and what the watcher makes
of a notice that the file may have changed: whether there is news, and what it says.
-/

namespace Upkeep.Config

/--
What is known of a file: it is there with a content, or it is not there.
-/
inductive FileState where
  | present (content : String)
  | missing
  deriving DecidableEq, Inhabited

/--
What a notice says. A file that was moved away counts as written, too.
-/
inductive NoticeKind where
  | removed
  | written
  | other
  deriving DecidableEq, Inhabited

/--
A notice about files of a directory, or that the watching itself failed.
-/
inductive Notice where
  | change (names : List String) (kind : NoticeKind)
  | failure (message : String)
  deriving DecidableEq, Inhabited

/--
What a watcher makes of a notice. `content` is what was read, if it was news.
-/
structure News where
  state : FileState
  content : Option String
  response : Option Response
  events : List Event
  deriving Inhabited

namespace FileState

def unchanged (s : FileState) (events : List Event) : News :=
  { state := s, content := none, response := none, events }

/--
The file is not there. That is news once.
-/
def remove (key path : String) (s : FileState) : News :=
  if s = .missing then
    s.unchanged []
  else
    { state := .missing, content := none, response := some .deleted
      events := [.info "config file removed" [("key", key), ("path", path)]] }

/--
The file was read. That is news if the content is another.
-/
def write (key path content : String) (s : FileState) : News :=
  if s = .present content then
    s.unchanged []
  else
    { state := .present content, content := some content, response := some ⟨content, .put⟩
      events := [.info "config file written" [("key", key), ("path", path)]] }

/--
Takes a notice about the file into account. `reading` is what reading the file gives now. A file
that cannot be read, but is there, stays as it was known.
-/
def update (key path : String) (s : FileState) (kind : NoticeKind)
    (reading : Except Fault String) : News :=
  match kind with
  | .removed => s.remove key path
  | .other => s.unchanged []
  | .written =>
    match reading with
    | .ok content => s.write key path content
    | .error .notFound => s.remove key path
    | .error e =>
      s.unchanged [.error "read watched config file failed"
        [("key", key), ("path", path), ("error", e.text)]]

/--
Takes any notice into account. Only those that name the file are about it.
-/
def handle (key path name : String) (s : FileState) (n : Notice)
    (reading : Except Fault String) : News :=
  match n with
  | .failure message =>
    s.unchanged [.error "watch config file failed"
      [("key", key), ("path", path), ("error", message)]]
  | .change names kind =>
    if names.contains name then s.update key path kind reading else s.unchanged []

end FileState

end Upkeep.Config
