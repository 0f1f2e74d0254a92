/-!
This module contains the fewest decimal digits that identify a double. A positive double is
`m * 2 ^ q`; every real number in a small interval around it rounds to it. The digits are those of
the nearest point of the coarsest decimal grid that has a point in this interval. All arithmetic
is exact.
-/

namespace Upkeep.Decimal

/--
A positive double as `mantissa * 2 ^ exponent`. `narrow` says that the double below is only half as
far away as the double above.
-/
structure Binary where
  mantissa : Nat
  exponent : Int
  narrow : Bool

/--
The mantissa and exponent of the magnitude of a finite double.
-/
def Binary.ofBits (bits : Nat) : Binary :=
  let fraction := bits % Nat.pow 2 52
  let biased := bits / Nat.pow 2 52 % Nat.pow 2 11
  if biased = 0 then
    { mantissa := fraction, exponent := -1074, narrow := false }
  else
    { mantissa := fraction + Nat.pow 2 52, exponent := (biased : Int) - 1075
      narrow := fraction = 0 && 1 < biased }

/--
Digits and a power of ten: the number `digits * 10 ^ exponent`.
-/
structure Digits where
  digits : Nat
  exponent : Int
  deriving DecidableEq

/--
A positive double over a common denominator, with the ends of its rounding interval: the double is
`value / scale`. The ends round to it exactly if its mantissa is even.
-/
structure Interval where
  low : Nat
  value : Nat
  high : Nat
  scale : Nat
  closed : Bool

def Binary.interval (b : Binary) : Interval :=
  let up := Nat.pow 2 b.exponent.toNat
  let below := if b.narrow then 1 else 2
  { low := (4 * b.mantissa - below) * up
    value := 4 * b.mantissa * up
    high := (4 * b.mantissa + 2) * up
    scale := 4 * Nat.pow 2 (-b.exponent).toNat
    closed := b.mantissa % 2 = 0 }

/--
Whether the fraction `num / den`, with the denominator of `i` taken out, lies in the interval.
-/
def Interval.contains (i : Interval) (num den : Nat) : Bool :=
  if i.closed then i.low * den ≤ num && num ≤ i.high * den
  else i.low * den < num && num < i.high * den

/--
The point of the grid with step `10 ^ e` that lies in the interval and is nearest to its value. A
tie goes to the upper point.
-/
def Interval.onGrid? (i : Interval) (e : Int) : Option Nat :=
  let stepNum := Nat.pow 10 e.toNat * i.scale
  let stepDen := Nat.pow 10 (-e).toNat
  let floor := i.value * stepDen / stepNum
  let below := i.contains (floor * stepNum) stepDen
  let above := i.contains ((floor + 1) * stepNum) stepDen
  let rest := i.value * stepDen - floor * stepNum
  if above && (!below || stepNum ≤ 2 * rest) then some (floor + 1)
  else if below && floor ≠ 0 then some floor
  else none

def digitCount (n : Nat) : Nat := (Nat.toDigits 10 n).length

/--
An exponent `k` with `10 ^ k ≤ value / scale`, as large as the digit counts show, or one less than
the largest.
-/
def Interval.magnitude (i : Interval) : Int :=
  (digitCount i.value : Int) - (digitCount i.scale : Int) - 1

/--
Removes zeros at the end of the digits, at most `fuel` of them.
-/
def Digits.trim (d : Digits) : Nat → Digits
  | 0 => d
  | fuel + 1 =>
    if d.digits ≠ 0 && d.digits % 10 = 0 then
      Digits.trim { digits := d.digits / 10, exponent := d.exponent + 1 } fuel
    else
      d

/--
The shortest digits of a positive double: the grids are tried from coarse to fine.
-/
def shortest (b : Binary) : Digits :=
  let i := b.interval
  let top := i.magnitude + 1
  let grids := (List.range 20).map fun (n : Nat) => top - (n : Int)
  match grids.findSome? fun e => (i.onGrid? e).map fun d => Digits.mk d e with
  | some d => d.trim 20
  | none => { digits := 0, exponent := 0 }

end Upkeep.Decimal
