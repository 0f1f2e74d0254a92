import Upkeep.Decimal.Shortest

/-!
This module contains the plain text of a double: the shortest digits that read back, always in
positional notation, with neither an exponent nor a fraction of zero.
-/

namespace Upkeep.Decimal

/--
The positional text of `digits * 10 ^ exponent`.
-/
def positional (d : Digits) : List Char :=
  let ds := Nat.toDigits 10 d.digits
  if 0 ≤ d.exponent then
    ds ++ List.replicate d.exponent.toNat '0'
  else
    let places := (-d.exponent).toNat
    if places < ds.length then
      ds.take (ds.length - places) ++ '.' :: ds.drop (ds.length - places)
    else
      '0' :: '.' :: (List.replicate (places - ds.length) '0' ++ ds)

/--
The text of the double with the given bits, with `write` for the digits of its magnitude. A negative
zero keeps its sign.
-/
def written (write : Digits → List Char) (bits : Nat) : String :=
  let negative := bits / Nat.pow 2 63 % 2 = 1
  let magnitude := bits % Nat.pow 2 63
  let sign := if negative then "-" else ""
  if 0x7ff * Nat.pow 2 52 < magnitude then "NaN"
  else if magnitude = 0x7ff * Nat.pow 2 52 then sign ++ "inf"
  else if magnitude = 0 then sign ++ String.ofList (write { digits := 0, exponent := 0 })
  else sign ++ String.ofList (write (shortest (Binary.ofBits magnitude)))

def plain (x : Float) : String := written positional x.toBits.toNat

end Upkeep.Decimal
