import Upkeep.Event
import Upkeep.Text.Blank

/-!
This module contains how much of what is logged is let through, and the texts that name it.
-/

namespace Upkeep.Log

/--
How much is let through, least first.
-/
inductive Verbosity where
  | off
  | error
  | warn
  | info
  | debug
  | trace
  deriving DecidableEq, Inhabited

namespace Verbosity

def rank : Verbosity → Nat
  | off => 0
  | error => 1
  | warn => 2
  | info => 3
  | debug => 4
  | trace => 5

def ofRank? : Nat → Option Verbosity
  | 0 => some off
  | 1 => some error
  | 2 => some warn
  | 3 => some info
  | 4 => some debug
  | 5 => some trace
  | _ => none

def label : Verbosity → String
  | off => "OFF"
  | error => "ERROR"
  | warn => "WARN"
  | info => "INFO"
  | debug => "DEBUG"
  | trace => "TRACE"

def name (v : Verbosity) : String := Text.lower v.label

def all : List Verbosity := [off, error, warn, info, debug, trace]

/--
What lets events of a severity and above through.
-/
def ofSeverity : Severity → Verbosity
  | .debug => debug
  | .info => info
  | .warn => warn
  | .error => error

/--
A number from 0 to 5 in decimal digits, maybe with a plus sign.
-/
def ofNumber? (s : String) : Option Verbosity :=
  let digits :=
    match s.toList with
    | '+' :: cs => cs
    | cs => cs
  if digits.isEmpty || !digits.all Char.isDigit then none
  else ofRank? (digits.foldl (fun n d => min 6 (10 * n + (d.toNat - '0'.toNat))) 0)

/--
The verbosity that a text names, by a number or by its name in any case.
-/
def ofText? (s : String) : Option Verbosity :=
  match ofNumber? s with
  | some v => some v
  | none =>
    if s.isEmpty then some error
    else all.find? fun v => v.name = Text.lower s

def inspect (v : Verbosity) : String := "LevelFilter::" ++ v.label

end Verbosity

end Upkeep.Log
