import Upkeep.Log.Filter

/-!
This module contains the lines in which events are written, without their time: the level, the
target, the message and the fields, plain or in colours. A message cannot steer the terminal: the
characters that would are written as escapes.
-/

namespace Upkeep.Log

structure Layout where
  ansi : Bool
  withTarget : Bool
  deriving DecidableEq, Inhabited

structure Entry where
  level : Verbosity
  target : String
  message : String
  fields : List (String × String)
  deriving DecidableEq, Inhabited

/--
The names of all fields of an event; its message is one of them.
-/
def Entry.names (e : Entry) : List String := "message" :: e.fields.map Prod.fst

namespace Layout

/--
A text in a graphic mode of the terminal.
-/
def styled (mode : String) (s : String) : String := "\x1b[" ++ mode ++ "m" ++ s ++ "\x1b[0m"

def colour : Verbosity → String
  | .error => "31"
  | .warn => "33"
  | .info => "32"
  | .debug => "34"
  | _ => "35"

/--
The name of a level, five characters wide.
-/
def padded (v : Verbosity) : String :=
  String.ofList (List.replicate (5 - v.label.length) ' ') ++ v.label

/--
How a character of a message is written. The controls that ring, move the cursor, clear the page or
begin a command for the terminal are escaped; the other characters stand for themselves.
-/
def letter (c : Char) : List Char :=
  let n := c.toNat
  if n = 0x07 || n = 0x08 || n = 0x0c || n = 0x1b || n = 0x7f then
    ['\\', 'x'] ++ List.replicate (2 - (Text.hexDigits n).length) '0' ++ Text.hexDigits n
  else if 0x80 ≤ n && n ≤ 0x9f then ['\\', 'u', '\x7b'] ++ Text.hexDigits n ++ ['\x7d']
  else [c]

/--
A message as it is written.
-/
def words (message : String) : String := String.ofList (message.toList.flatMap letter)

def field (l : Layout) (f : String × String) : String :=
  if l.ansi then styled "3" f.1 ++ styled "2" "=" ++ f.2 else f.1 ++ "=" ++ f.2

def line (l : Layout) (e : Entry) : String :=
  let level := if l.ansi then "\x1b[0m " ++ styled (colour e.level) (padded e.level)
    else " " ++ padded e.level
  let target :=
    if !l.withTarget then ""
    else if l.ansi then " " ++ styled "2" e.target ++ styled "2" ":"
    else " " ++ e.target ++ ":"
  level ++ target ++ " " ++ " ".intercalate (words e.message :: e.fields.map l.field)

end Layout

end Upkeep.Log
