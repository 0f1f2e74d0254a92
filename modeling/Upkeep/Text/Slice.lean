import Upkeep.Text.Quoted

/-!
This module contains pieces of a text that are given by byte positions in its UTF-8 form. A piece
exists only if both of its ends lie between two characters; `slice` otherwise says which end does
not, and in which character it lies.
-/

namespace Upkeep.Text

/--
Which end of a piece is meant.
-/
inductive Side where
  | start
  | stop
  deriving DecidableEq, Inhabited

/--
An end of a piece that lies inside a character, whose first byte is at `first`.
-/
structure Split where
  side : Side
  position : Nat
  inside : Char
  first : Nat
  deriving DecidableEq, Inhabited

namespace Split

def message (x : Split) : String :=
  let side :=
    match x.side with
    | .start => "start"
    | .stop => "end"
  side ++ " byte index " ++ toString x.position ++ " is not a char boundary; it is inside " ++
    quoteLetter x.inside ++ " (bytes " ++ toString x.first ++ ".." ++
    toString (x.first + x.inside.utf8Size) ++ " of string)"

end Split

/--
The number of bytes of a list of characters.
-/
def byteLength (cs : List Char) : Nat := cs.foldl (fun n c => n + c.utf8Size) 0

/--
The character that has a byte position strictly inside it, and where that character begins. The
characters begin at `first`.
-/
def straddled? (position first : Nat) : List Char → Option (Char × Nat)
  | [] => none
  | c :: cs =>
    if position ≤ first then none
    else if position < first + c.utf8Size then some (c, first)
    else straddled? position (first + c.utf8Size) cs

/--
The characters that begin at byte positions from `start` and before `stop`. The characters begin
at `first`.
-/
def between (start stop first : Nat) : List Char → List Char
  | [] => []
  | c :: cs =>
    let rest := between start stop (first + c.utf8Size) cs
    if start ≤ first && first < stop then c :: rest else rest

/--
The piece of a text from one byte position up to another.
-/
def slice (cs : List Char) (start stop : Nat) : Except Split (List Char) :=
  match straddled? start 0 cs with
  | some (c, first) => .error ⟨.start, start, c, first⟩
  | none =>
    match straddled? stop 0 cs with
    | some (c, first) => .error ⟨.stop, stop, c, first⟩
    | none => .ok (between start stop 0 cs)

end Upkeep.Text
