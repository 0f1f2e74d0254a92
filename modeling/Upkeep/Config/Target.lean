import Upkeep.Config.Error
import Upkeep.Dict
import Upkeep.Event
import Upkeep.Format.Toml.Record
import Upkeep.Span
import Upkeep.Text.Blank

/-!
This module contains the targets of clients: where a client connects to and how long a call may
take, by name of the client. A table of targets is read from a document as a whole or edited one
name at a time.
-/

namespace Upkeep.Config

/--
Where a client connects to.
-/
structure Target where
  address : String
  timeout : Span
  deriving DecidableEq, Inhabited

/--
A target of blanks stands for none.
-/
def Target.isConfigured (t : Target) : Bool := !Text.isBlankText t.address

structure TargetTable where
  byName : Dict String Target
  deriving Inhabited

namespace TargetTable

def empty : TargetTable := ⟨Dict.empty⟩

def get? (t : TargetTable) (name : String) : Option Target := t.byName.get? name

def upsert (t : TargetTable) (name : String) (target : Target) : TargetTable :=
  ⟨t.byName.insert name target⟩

def remove (t : TargetTable) (name : String) : TargetTable := ⟨t.byName.erase name⟩

def size (t : TargetTable) : Nat := t.byName.size

/--
The table of a list of entries. Of two entries with one name the later is taken.
-/
def ofEntries (entries : List (String × Target)) : TargetTable := ⟨Dict.ofList entries⟩

@[simp]
theorem get?_empty (name : String) : empty.get? name = none := rfl

theorem get?_upsert (t : TargetTable) (name other : String) (target : Target) :
    (t.upsert name target).get? other = if other = name then some target else t.get? other :=
  t.byName.get?_insert name other target

theorem get?_remove (t : TargetTable) (name other : String) :
    (t.remove name).get? other = if other = name then none else t.get? other :=
  t.byName.get?_erase name other

end TargetTable

open Format

/--
An entry of a document. Only the name has to be there.
-/
def readEntry? (n : Toml.Node) : Option (String × Target) := do
  match ← n.fields? [["name"], ["target"], ["timeout"]] with
  | [name, address, timeout] =>
    let name ← (← name).text?
    let address ← Toml.orElse address Toml.Node.text? ""
    let timeout ← Toml.orElse timeout (Toml.Node.nat? (Nat.pow 2 64)) 0
    return (name, { address, timeout := Span.ofMillis timeout })
  | _ => none

/--
The section of a document that lists the entries.
-/
def readSection? (n : Toml.Node) : Option (List (String × Target)) := do
  match ← n.fields? [["service"]] with
  | [service] => Toml.orElse service (fun s => s.list?.bind fun ns => ns.mapM readEntry?) []
  | _ => none

def readEntries? (text : String) : Option (List (String × Target)) := do
  let document ← Toml.parse? text
  match ← document.node.fields? [["client"]] with
  | [client] => Toml.orElse client readSection? []
  | _ => none

/--
Reads a table from a document. What the table held before is gone, unless the document is rejected.
-/
def TargetTable.read (text : String) : Except ConfigError (TargetTable × List Event) :=
  match readEntries? text with
  | none => .error .toml
  | some entries =>
    let t := ofEntries entries
    .ok (t, [.debug "client table reloaded" [("services", toString t.size)]])

end Upkeep.Config
