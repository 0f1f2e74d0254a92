import Upkeep.Decimal.Reading
import Upkeep.Format.Scanner
import Upkeep.Format.Value

/-!
This module contains the numbers of JSON texts. A number without point and exponent is an integer as
long as it fits 64 bits. Other numbers are read by the quick rule: digits that do not fit a
significand of 64 bits are cut off, and the rest is scaled.
-/

namespace Upkeep.Format.Json

/--
A number as it is written.
-/
structure Literal where
  negative : Bool
  whole : List Char
  fraction : Option (List Char)
  exponent : Option (Bool × List Char)
  deriving Inhabited

/--
The sign and digits of an exponent. The sign is `true` for a negative one.
-/
def exponentPart : Scanner (Bool × List Char) := do
  let _ ← Scanner.one fun c => c = 'e' || c = 'E'
  let sign ← Scanner.opt (Scanner.one fun c => c = '+' || c = '-')
  return (sign = some '-', ← Scanner.span1 Char.isDigit)

/--
A number. A zero is not followed by more digits of the whole part.
-/
def literal : Scanner Literal := do
  let negative := (← Scanner.opt (Scanner.word "-")).isSome
  let whole ←
    match ← Scanner.peek with
    | some '0' => Scanner.exactly 1 Char.isDigit
    | _ => Scanner.span1 Char.isDigit
  let fraction ←
    match ← Scanner.peek with
    | some '.' => do
      Scanner.word "."
      some <$> Scanner.span1 Char.isDigit
    | _ => pure none
  let exponent ←
    match ← Scanner.peek with
    | some 'e' | some 'E' => some <$> exponentPart
    | _ => pure none
  return { negative, whole, fraction, exponent }

/--
Appends digits to a significand as long as it fits 64 bits. Gives the significand and the number of
digits that were taken.
-/
def absorb (significand : Nat) : List Char → Nat × Nat
  | [] => (significand, 0)
  | d :: ds =>
    let next := 10 * significand + (d.toNat - '0'.toNat)
    if next < Nat.pow 2 64 then
      let (s, taken) := absorb next ds
      (s, taken + 1)
    else
      (significand, 0)

/--
The double for a significand and an exponent that is written out. An exponent of more than 31 bits
is out of range, unless the number is zero or vanishes.
-/
def Literal.magnitude? (l : Literal) (significand : Nat) (scale : Int) : Option Float :=
  match l.exponent with
  | none => Decimal.scaled significand scale
  | some (down, digits) =>
    let e := Decimal.valueOf digits
    if e < Nat.pow 2 31 then
      Decimal.scaled significand (if down then scale - e else scale + e)
    else if significand = 0 || down then
      some 0
    else
      none

/--
The value of a number, or `none` if it is out of range. A negative zero is no integer.
-/
def Literal.value? (l : Literal) : Option Value :=
  let (whole, taken) := absorb 0 l.whole
  let dropped := l.whole.length - taken
  if l.fraction.isNone && l.exponent.isNone && dropped = 0 then
    if !l.negative then
      some (.int whole)
    else if 0 < whole && whole ≤ Nat.pow 2 63 then
      some (.int (-whole))
    else
      some (.float (-(Decimal.nearest whole 0)))
  else
    let (significand, places) := absorb whole (l.fraction.getD [])
    (l.magnitude? significand (dropped - places)).map fun x =>
      .float (if l.negative then -x else x)

end Upkeep.Format.Json
