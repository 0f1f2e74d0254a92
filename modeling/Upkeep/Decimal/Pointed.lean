import Upkeep.Decimal.Plain

/-!
This module contains the pointed text of a double: the shortest digits that read back, with a point
or an exponent in any case, so that the text is never that of an integer. What is at least
`10 ^ -4` and less than `10 ^ 16` is in positional notation, and zero too.
-/

namespace Upkeep.Decimal

/--
The power of ten that the first digit counts.
-/
def Digits.order (d : Digits) : Int := (digitCount d.digits : Int) + d.exponent - 1

/--
The text with one digit before the point. The point is left out if nothing would follow it.
-/
def scientific (d : Digits) : List Char :=
  let ds := Nat.toDigits 10 d.digits
  let places := ds.drop 1
  let fraction := if places.isEmpty then [] else '.' :: places
  ds.take 1 ++ fraction ++ 'e' :: (toString d.order).toList

/--
The positional text, with a fraction of zero for an integer.
-/
def positionalPointed (d : Digits) : List Char :=
  if 0 ≤ d.exponent then positional d ++ ['.', '0'] else positional d

/--
The pointed text of `digits * 10 ^ exponent`.
-/
def pointedDigits (d : Digits) : List Char :=
  if -4 ≤ d.order && d.order < 16 then positionalPointed d else scientific d

def pointed (x : Float) : String := written pointedDigits x.toBits.toNat

end Upkeep.Decimal
