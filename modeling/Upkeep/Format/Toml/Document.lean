import Upkeep.Format.Toml.Number
import Upkeep.Format.Toml.Table
import Upkeep.Format.Toml.Text

/-!
This module contains TOML documents: the grammar of their values and statements, and the table that
the statements write.
-/

namespace Upkeep.Format.Toml

/--
The items of an array. A comma may follow the last.
-/
def items (nested : Scanner Node) : Scanner (List Node) := do
  let item : Scanner Node := do
    gap
    let n ← nested
    gap
    return n
  let ns ← Scanner.separated item (Scanner.word ",")
  if !ns.isEmpty then
    let _ ← Scanner.opt (Scanner.word ",")
  gap
  return ns

/--
The entries of a table between braces, in order. No comma follows the last.
-/
def assignments (nested : Scanner Node) : Scanner (List (List String × Node)) := do
  let entry : Scanner (List String × Node) := do
    let path ← key
    Scanner.word "="
    white
    let n ← nested
    white
    return (path, n)
  let es ← Scanner.separated entry (Scanner.word ",")
  white
  return es

/--
A value whose parts are read by `nested`, or a value without parts if that is missing.
-/
def valueWith (nested : Option (Scanner Node)) : Scanner Node := do
  match ← Scanner.peek with
  | some '"' | some '\'' => return .text (← text)
  | some '[' =>
    let nested ← nested
    Scanner.word "["
    let ns ← items nested
    Scanner.word "]"
    return .array ns
  | some '\x7b' =>
    let nested ← nested
    Scanner.word "\x7b"
    let es ← assignments nested
    Scanner.word "\x7d"
    let t ← (es.foldlM (fun t e => t.assign e.1 e.2) Table.blank : Option Table)
    return .table .inline t.entries
  | some 't' => Scanner.word "true"; return .bool true
  | some 'f' => Scanner.word "false"; return .bool false
  | _ =>
    (do return .datetime (← datetime)) <|> (do return .float (← float)) <|>
      (do return .int (← integer))

/--
A value with at most `depth` levels of nesting.
-/
def value : Nat → Scanner Node
  | 0 => valueWith none
  | depth + 1 => valueWith (some (value depth))

/--
The deepest nesting of a value.
-/
def maxDepth : Nat := 79

inductive Statement where
  | header (path : List String)
  | repeatedHeader (path : List String)
  | assign (path : List String) (v : Node)

/--
A header of a table, or of one of several tables.
-/
def header : Scanner Statement := do
  Scanner.word "["
  match ← Scanner.opt (Scanner.word "[") with
  | some _ =>
    let path ← key
    Scanner.word "]]"
    lineEnd
    return .repeatedHeader path
  | none =>
    let path ← key
    Scanner.word "]"
    lineEnd
    return .header path

/--
A key with its value.
-/
def assignment : Scanner Statement := do
  let path ← key
  Scanner.word "="
  white
  let v ← value maxDepth
  lineEnd
  return .assign path v

/--
One line of a document, or the lines of one statement.
-/
def line : Scanner (Option Statement) := do
  white
  match ← Scanner.peek with
  | some '#' =>
    comment
    newline <|> Scanner.atEnd
    return none
  | some '\n' | some '\r' => newline; return none
  | some '[' => some <$> header
  | _ => some <$> assignment

/--
The statements of a document. A byte order mark may come first.
-/
def statements : Scanner (List Statement) := do
  let _ ← Scanner.opt (Scanner.word "\ufeff")
  let lines ← Scanner.many line
  white
  return lines.filterMap id

/--
A document that is being written, and the path of the table that is open.
-/
structure Draft where
  root : Table
  path : List String

def Draft.write (d : Draft) : Statement → Option Draft
  | .header path => do return { root := ← d.root.opened path, path }
  | .repeatedHeader path => do return { root := ← d.root.repeated path, path }
  | .assign path v => do
    return { d with root := ← d.root.within false (Table.assign path v) d.path }

def parse? (s : String) : Option Table := do
  let ss ← Scanner.read? statements s.toList
  let d ← ss.foldlM Draft.write ⟨Table.blank, []⟩
  return d.root

end Upkeep.Format.Toml
