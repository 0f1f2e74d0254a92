import Upkeep.Pattern.Mode

/-!
This module contains the smallest parts of patterns: letters, which may be written by their code,
kinds of characters and places between them. Patterns match bytes of UTF-8 text, without tables of
Unicode properties, so that not all parts are supported in all modes.
-/

namespace Upkeep.Pattern

/--
A smallest part of a pattern. A letter that is a byte was written with two hexadecimal digits. A
boundary is one of words. Kinds are digits, blanks and word characters.
-/
inductive Atom where
  | letter (c : Char) (isByte : Bool)
  | dot
  | anchor
  | boundary
  | kind (negated : Bool)
  deriving DecidableEq, Inhabited

namespace Atom

/--
Whether a part is supported outside of sets. What depends on properties of characters needs bytes,
and what could match half of a character needs characters.
-/
def isSupported (m : Mode) : Atom → Bool
  | letter c isByte => if m.unicode then !m.caseless else !(isByte && 0x80 ≤ c.toNat)
  | dot => m.unicode
  | anchor => true
  | boundary => !m.unicode
  | kind negated => !m.unicode && !negated

/--
Whether a part is supported in a set.
-/
def isMember (m : Mode) : Atom → Bool
  | letter c _ => if m.unicode then !m.caseless else c.toNat < 0x80
  | kind negated => !m.unicode && !negated
  | _ => false

end Atom

def hexDigit? (c : Char) : Option Nat :=
  if c.isDigit then some (c.toNat - '0'.toNat)
  else if 'a' ≤ c && c ≤ 'f' then some (c.toNat - 'a'.toNat + 10)
  else if 'A' ≤ c && c ≤ 'F' then some (c.toNat - 'A'.toNat + 10)
  else none

/--
Reads the code of a letter, of so many hexadecimal digits.
-/
def readCode (m : Mode) (digits : Nat) (cs : List Char) : Option (Char × List Char) :=
  go digits 0 cs
where
  go : Nat → Nat → List Char → Option (Char × List Char)
    | 0, n, cs => if n.isValidChar then some (Char.ofNat n, cs) else none
    | digits + 1, n, cs =>
      match m.skip cs with
      | [] => none
      | c :: cs => (hexDigit? c).bind fun d => go digits (16 * n + d) cs

/--
Reads what stands behind a backslash. Letters and digits mean nothing but what is listed here; all
other ASCII characters mean themselves.
-/
def readEscape (m : Mode) : List Char → Option (Atom × List Char)
  | [] => none
  | c :: cs =>
    let code (digits : Nat) (isByte : Bool) : Option (Atom × List Char) :=
      (readCode m digits cs).map fun r => (.letter r.1 isByte, r.2)
    let letter (n : Nat) : Option (Atom × List Char) := some (.letter (Char.ofNat n) false, cs)
    match c with
    | 'x' => code 2 true
    | 'u' => code 4 false
    | 'U' => code 8 false
    | 'd' | 's' | 'w' => some (.kind false, cs)
    | 'D' | 'S' | 'W' => some (.kind true, cs)
    | 'A' | 'z' => some (.anchor, cs)
    | 'b' | 'B' | '<' | '>' => some (.boundary, cs)
    | 'a' => letter 0x07
    | 't' => letter 0x09
    | 'n' => letter 0x0a
    | 'v' => letter 0x0b
    | 'f' => letter 0x0c
    | 'r' => letter 0x0d
    | c => if c.toNat < 0x80 && !c.isAlphanum then some (.letter c false, cs) else none

def readAtom (m : Mode) : List Char → Option (Atom × List Char)
  | [] => none
  | '\\' :: cs => readEscape m cs
  | '.' :: cs => some (.dot, cs)
  | '^' :: cs | '$' :: cs => some (.anchor, cs)
  | c :: cs => some (.letter c false, cs)

end Upkeep.Pattern
