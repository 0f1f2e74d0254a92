import Upkeep.Pattern.CharSet
import Upkeep.Text.Alphanumeric

/-!
This module contains the patterns that a field may have to fit: regular expressions that are written
within braces, so that they have no closing brace and therefore no counts. Patterns are only checked
here, for whether they can be read and are supported.
-/

namespace Upkeep.Pattern

/--
Parts one behind the other. Of the last one it is known whether it can be repeated.
-/
structure Sequence where
  earlier : Row
  last : Option (Nat × Bool)
  deriving Inhabited

namespace Sequence

def empty : Sequence := ⟨.empty, none⟩

def row (s : Sequence) : Row :=
  match s.last with
  | some (depth, _) => s.earlier.add depth
  | none => s.earlier

def push (s : Sequence) (depth : Nat) (isRepeatable : Bool) : Sequence :=
  ⟨s.row, some (depth, isRepeatable)⟩

def repeated? (s : Sequence) : Option Sequence :=
  match s.last with
  | some (depth, true) => some { s with last := some (depth + 1, true) }
  | _ => none

end Sequence

/--
What is read of a group, or of the whole pattern: the branches that are complete, and the one that
is being read.
-/
structure Branches where
  complete : Row
  current : Sequence
  deriving Inhabited

namespace Branches

def empty : Branches := ⟨.empty, .empty⟩

def push (b : Branches) (depth : Nat) (isRepeatable : Bool) : Branches :=
  { b with current := b.current.push depth isRepeatable }

/--
Begins the next branch.
-/
def next (b : Branches) : Branches := ⟨b.complete.add b.current.row.nesting, .empty⟩

/--
How deep the parts are nested.
-/
def nesting (b : Branches) : Nat := b.next.complete.nesting

end Branches

/--
A pattern that is being read. `outer` are the groups that are open, each with the mode that holds
behind the group in it, and `names` are the names of groups.
-/
structure Draft where
  mode : Mode
  inner : Branches
  outer : List (Mode × Branches)
  names : List String
  deriving Inhabited

namespace Draft

def start : Draft := ⟨.standard, .empty, [], []⟩

/--
How deep the parts of a pattern may be nested.
-/
def maxNesting : Nat := 250

def push (d : Draft) (depth : Nat) (isRepeatable : Bool) : Draft :=
  { d with inner := d.inner.push depth isRepeatable }

def enter (d : Draft) (mode : Mode) : Draft :=
  { d with mode, inner := .empty, outer := (d.mode, d.inner) :: d.outer }

def leave? (d : Draft) : Option Draft :=
  match d.outer with
  | (mode, inner) :: outer =>
    some { d with mode, inner := inner.push (d.inner.nesting + 1) true, outer }
  | [] => none

/--
Whether a character may stand in the name of a group.
-/
def isNameChar (isFirst : Bool) (c : Char) : Bool :=
  if isFirst then c = '_' || Text.isAlphabetic c
  else c = '_' || c = '.' || c = '[' || c = ']' || Text.isAlphanumeric c

/--
Goes into a group with a name. No two groups have one name.
-/
def enterNamed? (d : Draft) (cs : List Char) : Option (Draft × List Char) :=
  match cs.takeWhile (· ≠ '>'), cs.dropWhile (· ≠ '>') with
  | first :: others, _ :: rest =>
    let name := String.ofList (first :: others)
    if isNameChar true first && others.all (isNameChar false) && !d.names.contains name then
      some ({ d with names := d.names ++ [name] }.enter d.mode, rest)
    else
      none
  | _, _ => none

/--
Reads what stands behind an opening parenthesis. What looks ahead or behind is not supported.
-/
def open? (d : Draft) (cs : List Char) : Option (Draft × List Char) :=
  match d.mode.skip cs with
  | '?' :: '=' :: _ | '?' :: '!' :: _ | '?' :: '<' :: '=' :: _ | '?' :: '<' :: '!' :: _ => none
  | '?' :: 'P' :: '<' :: cs | '?' :: '<' :: cs => d.enterNamed? cs
  | '?' :: cs =>
    match readSwitches cs with
    | some (switches, ')' :: cs) =>
      if switches.isEmpty then none
      else some ({ d with mode := switches.foldl Mode.set d.mode }.push 0 false, cs)
    | some (switches, _ :: cs) => some (d.enter (switches.foldl Mode.set d.mode), cs)
    | _ => none
  | cs => some (d.enter d.mode, cs)

def read : Nat → Draft → List Char → Option Draft
  | 0, _, _ => none
  | fuel + 1, d, cs =>
    match d.mode.skip cs with
    | [] => if d.outer.isEmpty && d.inner.nesting ≤ maxNesting then some d else none
    | '(' :: cs => do
      let (d, cs) ← d.open? cs
      read fuel d cs
    | ')' :: cs => do read fuel (← d.leave?) cs
    | '|' :: cs => read fuel { d with inner := d.inner.next } cs
    | '[' :: cs => do
      let (depth, cs) ← readSet d.mode (cs.length + 1) true none .empty (← openSet d.mode cs)
      read fuel (d.push (depth + 1) true) cs
    | '?' :: cs | '*' :: cs | '+' :: cs => do
      let current ← d.inner.current.repeated?
      let cs :=
        match cs with
        | '?' :: cs => cs
        | cs => cs
      read fuel { d with inner := { d.inner with current } } cs
    | '\x7b' :: _ => none
    | cs => do
      let (a, cs) ← readAtom d.mode cs
      if a.isSupported d.mode then read fuel (d.push 0 true) cs else none

end Draft

/--
Whether a text is a pattern that can be used.
-/
def isUsable (text : String) : Bool :=
  (Draft.read (text.length + 1) .start text.toList).isSome

end Upkeep.Pattern
