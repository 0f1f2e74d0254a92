import Upkeep.Format.Json.Number

/-!
This module contains JSON texts as trees. A tree follows the grammar and nothing else: numbers may
be out of range, strings may hold unpaired surrogates, and nesting has no limit. Reading a tree as
a free value checks all three.
-/

namespace Upkeep.Format.Json

/--
A part of a string: a character, or a code unit that is written in hexadecimal.
-/
inductive Piece where
  | char (c : Char)
  | unit (n : Nat)
  deriving DecidableEq, Inhabited

inductive Tree where
  | null
  | bool (b : Bool)
  | number (l : Literal)
  | text (pieces : List Piece)
  | list (items : List Tree)
  | object (members : List (List Piece × Tree))
  deriving Inhabited

/--
The characters that may stand between tokens.
-/
def isSpace (c : Char) : Bool := c = ' ' || c = '\n' || c = '\t' || c = '\r'

def spaces : Scanner Unit := do let _ ← Scanner.span isSpace

def isHexDigit (c : Char) : Bool :=
  c.isDigit || ('a' ≤ c && c ≤ 'f') || ('A' ≤ c && c ≤ 'F')

def hexValue (ds : List Char) : Nat :=
  ds.foldl (fun n c =>
    16 * n +
      (if c.isDigit then c.toNat - 48 else if c ≤ 'F' then c.toNat - 55 else c.toNat - 87)) 0

/--
What follows a backslash.
-/
def escape : Scanner Piece := do
  match ← Scanner.one fun _ => true with
  | '"' => return .char '"'
  | '\\' => return .char '\\'
  | '/' => return .char '/'
  | 'b' => return .char '\x08'
  | 'f' => return .char '\x0c'
  | 'n' => return .char '\n'
  | 'r' => return .char '\r'
  | 't' => return .char '\t'
  | 'u' => return .unit (hexValue (← Scanner.exactly 4 isHexDigit))
  | _ => failure

/--
One part of a string. Control characters have to be escaped.
-/
def piece : Scanner Piece := do
  match ← Scanner.one fun c => c ≠ '"' && 32 ≤ c.toNat with
  | '\\' => escape
  | c => return .char c

/--
A string in double quotes.
-/
def quoted : Scanner (List Piece) := do
  Scanner.word "\""
  let pieces ← Scanner.many piece
  Scanner.word "\""
  return pieces

def comma : Scanner Unit := do
  spaces
  Scanner.word ","

/--
A key with its value.
-/
def member (nested : Scanner Tree) : Scanner (List Piece × Tree) := do
  spaces
  let key ← quoted
  spaces
  Scanner.word ":"
  return (key, ← nested)

/--
A JSON text whose parts are read by `nested`.
-/
def treeWith (nested : Scanner Tree) : Scanner Tree := do
  spaces
  match ← Scanner.peek with
  | some 'n' => Scanner.word "null"; return .null
  | some 't' => Scanner.word "true"; return .bool true
  | some 'f' => Scanner.word "false"; return .bool false
  | some '"' => return .text (← quoted)
  | some '[' =>
    Scanner.word "["
    let items ← Scanner.separated nested comma
    spaces
    Scanner.word "]"
    return .list items
  | some '\x7b' =>
    Scanner.word "\x7b"
    let members ← Scanner.separated (member nested) comma
    spaces
    Scanner.word "\x7d"
    return .object members
  | _ => return .number (← literal)

/--
A JSON text with at most `depth` levels of nesting.
-/
def tree : Nat → Scanner Tree
  | 0 => failure
  | depth + 1 => treeWith (tree depth)

/--
Reads a JSON text. There are no more levels of nesting than characters.
-/
def Tree.parse? (s : String) : Option Tree :=
  let cs := s.toList
  Scanner.read? (do let t ← tree (cs.length + 1); spaces; return t) cs

/--
Whether a code unit is the first of a surrogate pair.
-/
def isHighSurrogate (n : Nat) : Bool := 0xd800 ≤ n && n < 0xdc00

/--
Whether a code unit is the second of a surrogate pair.
-/
def isLowSurrogate (n : Nat) : Bool := 0xdc00 ≤ n && n < 0xe000

/--
The characters of a string. Surrogates have to come in pairs.
-/
def charsOf? : List Piece → Option (List Char)
  | [] => some []
  | .char c :: rest => (c :: ·) <$> charsOf? rest
  | .unit n :: rest =>
    if isHighSurrogate n then
      match rest with
      | .unit m :: rest =>
        if isLowSurrogate m then
          (Char.ofNat (0x10000 + 0x400 * (n - 0xd800) + (m - 0xdc00)) :: ·) <$> charsOf? rest
        else
          none
      | _ => none
    else if isLowSurrogate n then
      none
    else
      (Char.ofNat n :: ·) <$> charsOf? rest

def textOf? (pieces : List Piece) : Option String := (charsOf? pieces).map String.ofList

mutual

/--
The free value of a tree with at most `depth` levels of nesting.
-/
def Tree.value? (depth : Nat) : Tree → Option Value
  | .null => some .null
  | .bool b => some (.bool b)
  | .number l => l.value?
  | .text pieces => (textOf? pieces).map .text
  | .list items =>
    match depth with
    | 0 => none
    | depth + 1 => (valuesOf? depth items).map .list
  | .object members =>
    match depth with
    | 0 => none
    | depth + 1 => (membersOf? depth members).map Value.ofMembers

def valuesOf? (depth : Nat) : List Tree → Option (List Value)
  | [] => some []
  | t :: ts => do return (← t.value? depth) :: (← valuesOf? depth ts)

def membersOf? (depth : Nat) : List (List Piece × Tree) → Option (List (String × Value))
  | [] => some []
  | m :: ms => do
    return (← textOf? m.1, ← m.2.value? depth) :: (← membersOf? depth ms)

end

/--
The deepest nesting of a free value.
-/
def maxDepth : Nat := 127

/--
Reads a JSON text as a free value.
-/
def readValue? (s : String) : Option Value := (Tree.parse? s).bind (Tree.value? maxDepth)

end Upkeep.Format.Json
