import Upkeep.Text.Blank

/-!
This module contains the modes in which patterns are read, and the switches that change them. In a
spaced pattern, blanks and comments may stand between the parts.
-/

namespace Upkeep.Pattern

/--
What can be switched on and off within a pattern.
-/
inductive Switch where
  | caseless
  | multiline
  | dotAll
  | lazy
  | unicode
  | breaks
  | spaced
  deriving DecidableEq, Inhabited

def Switch.ofChar? : Char → Option Switch
  | 'i' => some caseless
  | 'm' => some multiline
  | 's' => some dotAll
  | 'U' => some lazy
  | 'u' => some unicode
  | 'R' => some breaks
  | 'x' => some spaced
  | _ => none

/--
The switches that decide whether a pattern can be read.
-/
structure Mode where
  unicode : Bool
  caseless : Bool
  spaced : Bool
  deriving DecidableEq, Inhabited

namespace Mode

/--
The mode at the start of a pattern.
-/
def standard : Mode := { unicode := true, caseless := false, spaced := false }

/--
The mode after a switch was used.
-/
def set (m : Mode) (x : Switch × Bool) : Mode :=
  match x with
  | (.unicode, on) => { m with unicode := on }
  | (.caseless, on) => { m with caseless := on }
  | (.spaced, on) => { m with spaced := on }
  | _ => m

/--
Leaves out blanks and comments. A comment begins with `#` and ends with its line.
-/
def gap (inComment : Bool) : List Char → List Char
  | [] => []
  | c :: cs =>
    if inComment then gap (c ≠ '\n') cs
    else if Text.isBlank c then gap false cs
    else if c = '#' then gap true cs
    else c :: cs

/--
Goes on to the next part of a pattern.
-/
def skip (m : Mode) (cs : List Char) : List Char := if m.spaced then gap false cs else cs

/--
The character to expect behind a hyphen. Behind blanks and the sign of a comment it is the first of
the comment.
-/
def glimpse (m : Mode) (cs : List Char) : Option Char :=
  if m.spaced then
    let seen :=
      match cs.dropWhile Text.isBlank with
      | '#' :: rest => rest.dropWhile Text.isBlank
      | rest => rest
    seen.head?.or cs.head?
  else
    cs.head?

end Mode

/--
Reads switches up to a colon or a closing parenthesis, which stays. Behind a hyphen they are
switched off. None may stand twice, and the hyphen needs one behind it.
-/
def readSwitches (cs : List Char) : Option (List (Switch × Bool) × List Char) := go true false [] cs
where
  go (on isDangling : Bool) (seen : List (Switch × Bool)) :
      List Char → Option (List (Switch × Bool) × List Char)
    | [] => none
    | c :: cs =>
      if c = ':' || c = ')' then
        if isDangling then none else some (seen, c :: cs)
      else if c = '-' then
        if on then go false true seen cs else none
      else
        match Switch.ofChar? c with
        | some x => if seen.any (·.1 = x) then none else go on false (seen ++ [(x, on)]) cs
        | none => none

end Upkeep.Pattern
