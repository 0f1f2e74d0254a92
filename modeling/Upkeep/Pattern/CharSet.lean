import Upkeep.Pattern.Atom

/-!
This module contains the sets of characters in patterns: letters, ranges, kinds and other sets in
brackets, with operators between them. Of a set it is only known whether it can be read, and how
deep its parts are nested.
-/

namespace Upkeep.Pattern

/--
Things side by side: how many they are, and how deep the deepest is nested.
-/
structure Row where
  count : Nat
  depth : Nat
  deriving DecidableEq, Inhabited

namespace Row

def empty : Row := ⟨0, 0⟩

def add (r : Row) (depth : Nat) : Row := ⟨r.count + 1, max r.depth depth⟩

/--
How deep the things are nested together. One thing is not nested for itself.
-/
def nesting (r : Row) : Nat := if r.count ≤ 1 then r.depth else r.depth + 1

end Row

/--
The kinds of ASCII characters that have names.
-/
def asciiKinds : List String :=
  ["alnum", "alpha", "ascii", "blank", "cntrl", "digit", "graph", "lower", "print", "punct",
    "space", "upper", "word", "xdigit"]

/--
Reads the name of a kind of ASCII characters, between colons and up to the bracket behind it. Says
whether it is negated.
-/
def readKindName (cs : List Char) : Option (Bool × List Char) :=
  match cs with
  | ':' :: cs =>
    let (negated, cs) :=
      match cs with
      | '^' :: cs => (true, cs)
      | cs => (false, cs)
    match cs.dropWhile (· ≠ ':') with
    | ':' :: ']' :: rest =>
      if asciiKinds.contains (String.ofList (cs.takeWhile (· ≠ ':'))) then some (negated, rest)
      else none
    | _ => none
  | _ => none

def readMember (m : Mode) : List Char → Option (Atom × List Char)
  | [] => none
  | '\\' :: cs => readEscape m cs
  | c :: cs => some (.letter c false, cs)

/--
Reads a member of a set, or a range. A hyphen in front of a bracket or of another hyphen makes no
range.
-/
def readRange (m : Mode) (cs : List Char) : Option (List Char) := do
  let (first, cs) ← readMember m cs
  if !first.isMember m then none
  else
    match m.skip cs with
    | [] => none
    | '-' :: rest =>
      if m.glimpse rest = some ']' || m.glimpse rest = some '-' then return '-' :: rest
      else
        match first, ← readMember m (m.skip rest) with
        | .letter a _, (.letter b isByte, rest) =>
          if (Atom.letter b isByte).isMember m && a ≤ b then return rest else none
        | _, _ => none
    | rest => return rest

/--
Goes into a set, behind its bracket. A set of bytes cannot be negated, since it would match half of
a character.
-/
def openSet (m : Mode) (cs : List Char) : Option (List Char) :=
  match m.skip cs with
  | '^' :: cs => if m.unicode then some cs else none
  | cs => some cs

/--
How deep an operand of an operator is nested with what is in front of it.
-/
def combine (front : Option Nat) (depth : Nat) : Nat :=
  match front with
  | some front => max front depth + 1
  | none => depth

/--
Reads a set up to its closing bracket, and gives how deep its parts are nested. Hyphens at its
beginning are letters, and so is a closing bracket there.
-/
def readSet (m : Mode) :
    Nat → (isOpening : Bool) → (front : Option Nat) → Row → List Char → Option (Nat × List Char)
  | 0, _, _, _, _ => none
  | fuel + 1, isOpening, front, row, cs =>
    let letters := (Atom.letter 'a' false).isMember m
    match m.skip cs with
    | [] => none
    | ']' :: rest =>
      if isOpening && row.count = 0 then
        if letters then readSet m fuel false front (row.add 0) rest else none
      else some (combine front row.nesting, rest)
    | '[' :: rest =>
      match readKindName rest with
      | some (negated, rest) =>
        if if m.unicode then m.caseless else negated then none
        else readSet m fuel false front (row.add 0) rest
      | none => do
        let (depth, rest) ← readSet m fuel true none .empty (← openSet m rest)
        readSet m fuel false front (row.add (depth + 1)) rest
    | '-' :: rest =>
      if isOpening then
        if letters then readSet m fuel true front (row.add 0) rest else none
      else
        match rest with
        | '-' :: rest => readSet m fuel false (some (combine front row.nesting)) .empty rest
        | _ => do readSet m fuel false front (row.add 0) (← readRange m ('-' :: rest))
    | '&' :: '&' :: rest | '~' :: '~' :: rest =>
      readSet m fuel false (some (combine front row.nesting)) .empty rest
    | cs => do readSet m fuel false front (row.add 0) (← readRange m cs)

end Upkeep.Pattern
