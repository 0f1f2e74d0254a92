import Upkeep.Format.Toml.Datetime
import Upkeep.Format.Value

/-!
This module contains the values and tables of TOML documents, and the rules for writing into tables
bit by bit: a table that was written out is not opened again by a key with points, and nothing is
written twice.
-/

namespace Upkeep.Format.Toml

/--
How a table came to be: by a header or as the document itself, by a header of a table inside it, by
a key with points, or between braces.
-/
inductive Origin where
  | written
  | implied
  | dotted
  | inline
  deriving DecidableEq, Inhabited

/--
A value of a document. `tables` are the tables of a repeated header, oldest first.
-/
inductive Node where
  | text (s : String)
  | int (n : Int)
  | float (x : Float)
  | bool (b : Bool)
  | datetime (d : Datetime)
  | array (items : List Node)
  | table (origin : Origin) (entries : List (String × Node))
  | tables (items : List Node)

instance : Inhabited Node := ⟨.bool false⟩

structure Table where
  origin : Origin
  entries : List (String × Node)
  deriving Inhabited

namespace Table

def node (t : Table) : Node := .table t.origin t.entries

/--
A document, or a table that was just opened by its header.
-/
def blank : Table := ⟨.written, []⟩

def get? (t : Table) (k : String) : Option Node := t.entries.lookup k

/--
Binds a key in place, or at the end.
-/
def set (t : Table) (k : String) (v : Node) : Table :=
  if (t.get? k).isSome then
    { t with entries := t.entries.map fun e => if e.1 = k then (k, v) else e }
  else
    { t with entries := t.entries ++ [(k, v)] }

/--
Binds a key that is not bound.
-/
def add? (t : Table) (k : String) (v : Node) : Option Table :=
  if (t.get? k).isSome then none else some (t.set k v)

/--
Changes the table at a path. Missing tables on the way are made. Of repeated tables the last is
entered. A key with points enters no table that was written out.
-/
def within (byKey : Bool) (change : Table → Option Table) : List String → Table → Option Table
  | [], t => change t
  | k :: path, t => do
    let next := (t.get? k).getD (.table (if byKey then .dotted else .implied) [])
    match next with
    | .table .inline _ => none
    | .table origin entries =>
      if byKey && origin = .written then
        none
      else
        let inner ← within byKey change path ⟨origin, entries⟩
        return t.set k inner.node
    | .tables items =>
      match items.getLast? with
      | some (.table origin entries) =>
        let inner ← within byKey change path ⟨origin, entries⟩
        return t.set k (.tables (items.dropLast ++ [inner.node]))
      | _ => none
    | _ => none

/--
Writes a value under a key, which may have points. The table that gets the value has to be open for
keys of this form.
-/
def assign (path : List String) (v : Node) (t : Table) : Option Table :=
  match path.getLast? with
  | none => none
  | some k =>
    within true (fun t =>
      if (t.origin = .dotted) = (path.length = 1) then none else t.add? k v) path.dropLast t

/--
Opens a table by its header. A table that exists only by the headers of tables inside it may be
opened once.
-/
def opened (path : List String) (t : Table) : Option Table :=
  match path.getLast? with
  | none => none
  | some k =>
    within false (fun t =>
      match t.get? k with
      | none => some (t.set k (.table .written []))
      | some (.table .implied entries) => some (t.set k (.table .written entries))
      | some _ => none) path.dropLast t

/--
Adds a table under a repeated header.
-/
def repeated (path : List String) (t : Table) : Option Table :=
  match path.getLast? with
  | none => none
  | some k =>
    within false (fun t =>
      match t.get? k with
      | none => some (t.set k (.tables [blank.node]))
      | some (.tables items) => some (t.set k (.tables (items ++ [blank.node])))
      | some _ => none) path.dropLast t

end Table

mutual

/--
The free value of a node. A float that is no finite number becomes null, and a date or time an
object with its text.
-/
def Node.value : Node → Value
  | .text s => .text s
  | .int n => .int n
  | .float x => if x.isFinite then .float x else .null
  | .bool b => .bool b
  | .datetime d => .object [("$__toml_private_datetime", .text d.text)]
  | .array items => .list (valuesOf items)
  | .table _ entries => Value.ofMembers (membersOf entries)
  | .tables items => .list (valuesOf items)

def valuesOf : List Node → List Value
  | [] => []
  | n :: ns => n.value :: valuesOf ns

def membersOf : List (String × Node) → List (String × Value)
  | [] => []
  | e :: es => (e.1, e.2.value) :: membersOf es

end

end Upkeep.Format.Toml
