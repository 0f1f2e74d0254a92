import Upkeep.Decimal.Reading
import Upkeep.Format.Json.Tree
import Upkeep.Format.Scanner

/-!
This module contains the numbers of TOML documents.
-/

namespace Upkeep.Format.Toml

/--
Digits of which each may have an underscore before it, the first excepted.
-/
def grouped (p : Char → Bool) : Scanner (List Char) := do
  let first ← Scanner.one p
  let rest ← Scanner.many (Scanner.one p <|> do Scanner.word "_"; Scanner.one p)
  return first :: rest

/--
The sign of a number, `true` for a negative one.
-/
def sign : Scanner Bool := do
  return (← Scanner.opt (Scanner.one fun c => c = '+' || c = '-')) = some '-'

/--
The whole part of a decimal number: a zero, or digits that do not begin with one.
-/
def wholeDigits : Scanner (List Char) := do
  match ← Scanner.peek with
  | some '0' => Scanner.exactly 1 Char.isDigit
  | _ => grouped Char.isDigit

/--
An integer has to fit 64 bits.
-/
def fitting (n : Int) : Scanner Int :=
  if -9223372036854775808 ≤ n && n < 9223372036854775808 then return n else failure

/--
Digits behind the letter that names their base.
-/
def based (letter : String) (p : Char → Bool) (base : Nat) : Scanner Int := do
  Scanner.word letter
  let ds ← grouped p
  fitting (ds.foldl (fun n d => base * n + Json.hexValue [d]) 0 : Nat)

def integer : Scanner Int :=
  based "0x" Json.isHexDigit 16 <|>
  based "0o" (fun c => '0' ≤ c && c ≤ '7') 8 <|>
  based "0b" (fun c => c = '0' || c = '1') 2 <|> do
    let negative ← sign
    let n := Decimal.valueOf (← wholeDigits)
    fitting (if negative then -n else n)

def exponent : Scanner Int := do
  let _ ← Scanner.one fun c => c = 'e' || c = 'E'
  let negative ← sign
  let n := Decimal.valueOf (← grouped Char.isDigit)
  return if negative then -n else n

/--
A decimal float. One that is too large is refused, unless it is negative.
-/
def decimal : Scanner Float := do
  let negative ← sign
  let whole ← wholeDigits
  let fraction ← Scanner.opt (do Scanner.word "."; grouped Char.isDigit)
  let e ← Scanner.opt exponent
  if fraction.isNone && e.isNone then
    failure
  else
    let places := fraction.getD []
    let x := Decimal.nearest (Decimal.valueOf (whole ++ places)) (e.getD 0 - places.length)
    if negative then return -x
    else if x.isInf then failure
    else return x

/--
The floats that are not numbers or not finite.
-/
def special : Scanner Float := do
  let negative ← sign
  let x ← (do Scanner.word "inf"; return (1.0 / 0.0 : Float)) <|>
    (do Scanner.word "nan"; return (0.0 / 0.0 : Float))
  return if negative then -x else x

def float : Scanner Float := decimal <|> special

end Upkeep.Format.Toml
