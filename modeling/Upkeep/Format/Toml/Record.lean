import Upkeep.Format.Toml.Document

/-!
This module contains the reading of records from TOML documents. A record is a table with its fields
by name, or an array with its fields in order.
-/

namespace Upkeep.Format.Toml

namespace Node

def text? : Node → Option String
  | text s => some s
  | _ => none

def bool? : Node → Option Bool
  | bool b => some b
  | _ => none

/--
An integer that is not negative and below a bound.
-/
def nat? (bound : Nat) : Node → Option Nat
  | int n => if 0 ≤ n && n < bound then some n.toNat else none
  | _ => none

def list? : Node → Option (List Node)
  | array items => some items
  | tables items => some items
  | _ => none

def texts? (n : Node) : Option (List String) := n.list?.bind fun ns => ns.mapM text?

end Node

/--
The value of a field that may go by several names, of which the document uses at most one. The outer
`none` says that it uses more.
-/
def field? (entries : List (String × Node)) (names : List String) : Option (Option Node) :=
  match entries.filter fun e => names.contains e.1 with
  | [] => some none
  | [e] => some (some e.2)
  | _ => none

/--
The values of the given fields, as far as the record has them. What a record has beyond its fields
does not matter. A date reads as a record without any of the fields.
-/
def Node.fields? (fields : List (List String)) : Node → Option (List (Option Node))
  | .table _ entries => fields.mapM (field? entries)
  | .array items => some (fields.zipIdx.map fun f => items[f.2]?)
  | .tables items => some (fields.zipIdx.map fun f => items[f.2]?)
  | .datetime _ => some (fields.map fun _ => none)
  | _ => none

/--
Reads an optional field, with a value for the case that it is missing.
-/
def orElse (n : Option Node) (read : Node → Option α) (default : α) : Option α :=
  match n with
  | some n => read n
  | none => some default

/--
Reads the free value of a document.
-/
def readValue? (s : String) : Option Value := (parse? s).map fun t => t.node.value

end Upkeep.Format.Toml
