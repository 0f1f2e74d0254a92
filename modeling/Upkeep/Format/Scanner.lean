/-!
This module contains scanners: functions that take something from the front of a text, or fail and
take nothing.
-/

namespace Upkeep.Format

/--
Takes a value from the front of a list of characters.
-/
abbrev Scanner := StateT (List Char) Option

namespace Scanner

/--
The next character, which stays.
-/
def peek : Scanner (Option Char) := fun cs => some (cs.head?, cs)

/--
One character of a class.
-/
def one (p : Char → Bool) : Scanner Char
  | c :: cs => if p c then some (c, cs) else none
  | [] => none

/--
The given characters.
-/
def word (w : String) : Scanner Unit := fun cs =>
  if w.toList.isPrefixOf cs then some ((), cs.drop w.length) else none

/--
All characters of a class up to the first that is not.
-/
def span (p : Char → Bool) : Scanner (List Char) := fun cs =>
  some (cs.takeWhile p, cs.dropWhile p)

/--
As `span`, but at least one character.
-/
def span1 (p : Char → Bool) : Scanner (List Char) := do
  let cs ← span p
  if cs.isEmpty then failure else return cs

/--
Exactly `n` characters of a class.
-/
def exactly (n : Nat) (p : Char → Bool) : Scanner (List Char) := fun cs =>
  let front := cs.take n
  if front.length = n && front.all p then some (front, cs.drop n) else none

/--
Takes what `s` takes, or nothing if `s` fails.
-/
def opt (s : Scanner α) : Scanner (Option α) := fun cs =>
  match s cs with
  | some (a, rest) => some (some a, rest)
  | none => some (none, cs)

/--
Takes what `s` takes, again and again, until `s` fails or takes nothing.
-/
def many (s : Scanner α) : Scanner (List α) := fun cs => some (go cs.length cs)
where
  go : Nat → List Char → List α × List Char
    | 0, cs => ([], cs)
    | fuel + 1, cs =>
      match s cs with
      | some (a, rest) =>
        if rest.length < cs.length then
          let (as, rest) := go fuel rest
          (a :: as, rest)
        else
          ([], cs)
      | none => ([], cs)

/--
Items with a separator between them, possibly none.
-/
def separated (item : Scanner α) (separator : Scanner Unit) : Scanner (List α) := do
  match ← opt item with
  | none => return []
  | some a => return a :: (← many (do separator; item))

/--
Nothing, at the end of the text.
-/
def atEnd : Scanner Unit := fun cs => if cs.isEmpty then some ((), cs) else none

def read? (s : Scanner α) (text : List Char) : Option α :=
  (s text).bind fun r => if r.2.isEmpty then some r.1 else none

end Scanner

end Upkeep.Format
