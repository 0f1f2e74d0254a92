/-!
This module contains the reading of decimal numbers as doubles. `nearest` rounds correctly, and
`ofText?` reads with it. `scaled` is the quick reading: a significand of 64 bits is rounded once and
then multiplied or divided by powers of ten that are doubles themselves, so the last place may be
off by one.
-/

namespace Upkeep.Decimal

/--
The value of decimal digits, most significant first.
-/
def valueOf (ds : List Char) : Nat := ds.foldl (fun n c => 10 * n + (c.toNat - '0'.toNat)) 0

/--
The number that is written with the given digits, of which there has to be one.
-/
def natural? (ds : List Char) : Option Nat :=
  if ds.isEmpty || !ds.all Char.isDigit then none else some (valueOf ds)

/--
The double nearest to `m * 10 ^ e`, infinite if that is out of range.
-/
def nearest (m : Nat) (e : Int) : Float :=
  let size := ((Nat.toDigits 10 m).length : Int) + e
  if m = 0 || size < -400 then 0.0
  else if 400 < size then 1.0 / 0.0
  else Float.ofScientific m (e < 0) e.natAbs

/--
The double nearest to `10 ^ n`.
-/
def power (n : Nat) : Float := nearest 1 n

/--
Divides by `10 ^ exponent` in steps of at most `10 ^ 308`. Three full steps take every significand
of 64 bits to zero, so that more of them change nothing.
-/
def divided (x : Float) (exponent : Nat) : Float :=
  let steps := (exponent - 1) / 308
  Nat.repeat (· / power 308) (min 3 steps) x / power (exponent - 308 * steps)

/--
The quick reading of `significand * 10 ^ exponent`, or `none` if it overflows.
-/
def scaled (significand : Nat) (exponent : Int) : Option Float :=
  let x := nearest significand 0
  if exponent < 0 then
    some (divided x (-exponent).toNat)
  else if 308 < exponent then
    if x == 0.0 then some x else none
  else
    let y := x * power exponent.toNat
    if y.isInf then none else some y

/--
The sign that a number may begin with, `true` for a minus, and what stands behind it.
-/
def splitSign : List Char → Bool × List Char
  | '-' :: cs => (true, cs)
  | '+' :: cs => (false, cs)
  | cs => (false, cs)

/--
The power of ten behind the letter that announces it.
-/
def exponent? (cs : List Char) : Option Int :=
  let (negative, ds) := splitSign cs
  (natural? ds).map fun n => if negative then -(n : Int) else n

/--
The double that is written without a sign: digits, a point before, among or behind them, and maybe
an exponent. It is infinite if it is out of range.
-/
def magnitude? (cs : List Char) : Option Float := do
  let significand := cs.takeWhile fun c => c ≠ 'e' && c ≠ 'E'
  let whole := significand.takeWhile (· ≠ '.')
  let places := significand.drop (whole.length + 1)
  let m ← natural? (whole ++ places)
  let e ←
    match cs.drop significand.length with
    | [] => some 0
    | _ :: power => exponent? power
  return nearest m (e - places.length)

/--
The double that a text stands for. The words for what is infinite or not a number may be in capital
letters.
-/
def ofText? (s : String) : Option Float := do
  let (negative, cs) := splitSign s.toList
  let x ←
    match String.ofList (cs.map Char.toLower) with
    | "inf" | "infinity" => some (1.0 / 0.0)
    | "nan" => some (0.0 / 0.0)
    | _ => magnitude? cs
  return if negative then -x else x

end Upkeep.Decimal
