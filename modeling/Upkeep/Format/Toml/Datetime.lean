import Upkeep.Decimal.Reading
import Upkeep.Format.Scanner

/-!
This module contains the dates and times of TOML documents: their grammar, the calendar rules that
they obey, and their normal text.
-/

namespace Upkeep.Format.Toml

structure Date where
  year : Nat
  month : Nat
  day : Nat
  deriving DecidableEq

/--
A time of day. `fraction` holds at most nine digits after the point.
-/
structure Time where
  hour : Nat
  minute : Nat
  second : Nat
  fraction : List Char
  deriving DecidableEq

/--
The difference to universal time, in minutes.
-/
inductive Offset where
  | universal
  | minutes (n : Int)
  deriving DecidableEq

/--
A date, a time, or both, with an offset only behind both.
-/
inductive Datetime where
  | date (d : Date)
  | time (t : Time)
  | both (d : Date) (t : Time) (o : Option Offset)
  deriving DecidableEq

/--
Whether a year has a 29th of February.
-/
def isLeapYear (y : Nat) : Bool := y % 4 = 0 && (y % 100 ≠ 0 || y % 400 = 0)

def daysOf (year month : Nat) : Nat :=
  match month with
  | 2 => if isLeapYear year then 29 else 28
  | 4 | 6 | 9 | 11 => 30
  | _ => 31

/--
A number of exactly `n` digits within bounds.
-/
def bounded (n low high : Nat) : Scanner Nat := do
  let v := Decimal.valueOf (← Scanner.exactly n Char.isDigit)
  if low ≤ v && v ≤ high then return v else failure

def date : Scanner Date := do
  let year ← bounded 4 0 9999
  Scanner.word "-"
  let month ← bounded 2 1 12
  Scanner.word "-"
  let day ← bounded 2 1 (daysOf year month)
  return { year, month, day }

/--
The digits after the point of a second. What is finer than a nanosecond is cut off.
-/
def secondFraction : Scanner (List Char) := do
  Scanner.word "."
  return (← Scanner.span1 Char.isDigit).take 9

def time : Scanner Time := do
  let hour ← bounded 2 0 23
  Scanner.word ":"
  let minute ← bounded 2 0 59
  Scanner.word ":"
  let second ← bounded 2 0 60
  return { hour, minute, second, fraction := (← Scanner.opt secondFraction).getD [] }

def offset : Scanner Offset := do
  match ← Scanner.one fun c => c = 'Z' || c = 'z' || c = '+' || c = '-' with
  | '+' => return .minutes (← distance)
  | '-' => return .minutes (-(← distance : Nat))
  | _ => return .universal
where
  distance : Scanner Nat := do
    let hour ← bounded 2 0 23
    Scanner.word ":"
    return 60 * hour + (← bounded 2 0 59)

/--
The time that follows a date, behind a letter or a space.
-/
def timeOfDay : Scanner (Time × Option Offset) := do
  let _ ← Scanner.one fun c => c = 'T' || c = 't' || c = ' '
  return (← time, ← Scanner.opt offset)

/--
A date, a time or both.
-/
def datetime : Scanner Datetime := do
  match ← Scanner.opt date with
  | some d =>
    match ← Scanner.opt timeOfDay with
    | some (t, o) => return .both d t o
    | none => return .date d
  | none => return .time (← time)

/--
The last `n` decimal digits of a number, with zeros in front.
-/
def paddedTo (n x : Nat) : String :=
  let ds := Nat.toDigits 10 x
  String.ofList (List.replicate (n - ds.length) '0' ++ ds)

def Date.text (d : Date) : String :=
  paddedTo 4 d.year ++ "-" ++ paddedTo 2 d.month ++ "-" ++ paddedTo 2 d.day

/--
The text of a time. Zeros at the end of the fraction are left out.
-/
def Time.text (t : Time) : String :=
  let fraction := (t.fraction.reverse.dropWhile (· = '0')).reverse
  paddedTo 2 t.hour ++ ":" ++ paddedTo 2 t.minute ++ ":" ++ paddedTo 2 t.second ++
    (if fraction.isEmpty then "" else "." ++ String.ofList fraction)

def Offset.text : Offset → String
  | universal => "Z"
  | minutes n =>
    (if n < 0 then "-" else "+") ++ paddedTo 2 (n.natAbs / 60) ++ ":" ++
      paddedTo 2 (n.natAbs % 60)

def Datetime.text : Datetime → String
  | date d => d.text
  | time t => t.text
  | both d t o => d.text ++ "T" ++ t.text ++ ((o.map Offset.text).getD "")

end Upkeep.Format.Toml
