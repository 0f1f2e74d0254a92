/-!
This module contains what a reader makes of the text that a log has written: its lines, each without
the time that it begins with.
-/

namespace Upkeep.Log.Transcript

/--
The lines of a text, without the line breaks that end them. A line break is a line feed, maybe with
a carriage return before it. The text ends with a line break of its own, which is left out.
-/
def lines : List Char → List (List Char)
  | [] => [[]]
  | c :: cs =>
    let rest := lines cs
    if c = '\n' then [] :: rest
    else if c = '\r' && (cs.head?.all (· = '\n')) then rest
    else
      match rest with
      | [] => [[c]]
      | l :: ls => (c :: l) :: ls

/--
A line without its time, which ends with the first `Z`. A line without a `Z` has no time.
-/
def timeless (line : List Char) : List Char :=
  match line.dropWhile (· ≠ 'Z') with
  | [] => line
  | _ :: rest => rest

/--
What is read of an event that was written as `written`, behind its time.
-/
def ofWritten (written : String) : List String :=
  match lines written.toList with
  | [] => []
  | first :: rest => (first :: rest.map timeless).map String.ofList

end Upkeep.Log.Transcript
