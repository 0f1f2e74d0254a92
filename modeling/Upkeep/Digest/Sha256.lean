/-!
This module contains the SHA-256 hash function.
-/

namespace Upkeep.Digest

/--
The round constants: the first 32 bits of the fractional parts of the cube roots of the first 64
primes.
-/
def roundConstants : Array UInt32 := #[
  0x428a2f98, 0x71374491, 0xb5c0fbcf, 0xe9b5dba5, 0x3956c25b, 0x59f111f1, 0x923f82a4, 0xab1c5ed5,
  0xd807aa98, 0x12835b01, 0x243185be, 0x550c7dc3, 0x72be5d74, 0x80deb1fe, 0x9bdc06a7, 0xc19bf174,
  0xe49b69c1, 0xefbe4786, 0x0fc19dc6, 0x240ca1cc, 0x2de92c6f, 0x4a7484aa, 0x5cb0a9dc, 0x76f988da,
  0x983e5152, 0xa831c66d, 0xb00327c8, 0xbf597fc7, 0xc6e00bf3, 0xd5a79147, 0x06ca6351, 0x14292967,
  0x27b70a85, 0x2e1b2138, 0x4d2c6dfc, 0x53380d13, 0x650a7354, 0x766a0abb, 0x81c2c92e, 0x92722c85,
  0xa2bfe8a1, 0xa81a664b, 0xc24b8b70, 0xc76c51a3, 0xd192e819, 0xd6990624, 0xf40e3585, 0x106aa070,
  0x19a4c116, 0x1e376c08, 0x2748774c, 0x34b0bcb5, 0x391c0cb3, 0x4ed8aa4a, 0x5b9cca4f, 0x682e6ff3,
  0x748f82ee, 0x78a5636f, 0x84c87814, 0x8cc70208, 0x90befffa, 0xa4506ceb, 0xbef9a3f7, 0xc67178f2]

/--
The eight working words.
-/
structure Words where
  a : UInt32
  b : UInt32
  c : UInt32
  d : UInt32
  e : UInt32
  f : UInt32
  g : UInt32
  h : UInt32

/--
The first words: the first 32 bits of the fractional parts of the square roots of the first eight
primes.
-/
def Words.initial : Words :=
  { a := 0x6a09e667, b := 0xbb67ae85, c := 0x3c6ef372, d := 0xa54ff53a
    e := 0x510e527f, f := 0x9b05688c, g := 0x1f83d9ab, h := 0x5be0cd19 }

def Words.toList (w : Words) : List UInt32 := [w.a, w.b, w.c, w.d, w.e, w.f, w.g, w.h]

/--
A word turned right by `n` places, for `n` from 1 to 31.
-/
def rotateRight (x : UInt32) (n : UInt32) : UInt32 := (x >>> n) ||| (x <<< (32 - n))

/--
The next word of the message schedule. The last sixteen words are given, newest first.
-/
def scheduleWord (recent : List UInt32) : UInt32 :=
  let w2 := recent.getD 1 0
  let w7 := recent.getD 6 0
  let w15 := recent.getD 14 0
  let w16 := recent.getD 15 0
  let s0 := rotateRight w15 7 ^^^ rotateRight w15 18 ^^^ (w15 >>> 3)
  let s1 := rotateRight w2 17 ^^^ rotateRight w2 19 ^^^ (w2 >>> 10)
  w16 + s0 + w7 + s1

/--
Extends a schedule, newest word first, by `n` words.
-/
def extendSchedule (recent : List UInt32) : Nat → List UInt32
  | 0 => recent
  | n + 1 => extendSchedule (scheduleWord recent :: recent) n

/--
One round with a schedule word and a round constant.
-/
def round (w : Words) (message constant : UInt32) : Words :=
  let s1 := rotateRight w.e 6 ^^^ rotateRight w.e 11 ^^^ rotateRight w.e 25
  let choice := (w.e &&& w.f) ^^^ ((~~~ w.e) &&& w.g)
  let t1 := w.h + s1 + choice + constant + message
  let s0 := rotateRight w.a 2 ^^^ rotateRight w.a 13 ^^^ rotateRight w.a 22
  let majority := (w.a &&& w.b) ^^^ (w.a &&& w.c) ^^^ (w.b &&& w.c)
  { a := t1 + (s0 + majority), b := w.a, c := w.b, d := w.c
    e := w.d + t1, f := w.e, g := w.f, h := w.g }

/--
Takes a block of sixteen words into the hash.
-/
def compress (w : Words) (block : List UInt32) : Words :=
  let schedule := (extendSchedule block.reverse 48).reverse
  let v := (schedule.zip roundConstants.toList).foldl (fun v p => round v p.1 p.2) w
  { a := w.a + v.a, b := w.b + v.b, c := w.c + v.c, d := w.d + v.d
    e := w.e + v.e, f := w.f + v.f, g := w.g + v.g, h := w.h + v.h }

/--
The bytes of a number with `n` bytes, most significant first.
-/
def bigEndian (x : Nat) (n : Nat) : List UInt8 :=
  (List.range n).reverse.map fun i => UInt8.ofNat (x / Nat.pow 256 i % 256)

/--
The message with a one bit, zeros up to the next block and its length in bits.
-/
def pad (message : List UInt8) : List UInt8 :=
  let zeros := (119 - message.length % 64) % 64
  message ++ 0x80 :: (List.replicate zeros 0 ++ bigEndian (8 * message.length) 8)

/--
The words of a list of bytes. Bytes that do not fill a word are left out.
-/
def wordsOf : List UInt8 → List UInt32
  | a :: b :: c :: d :: rest =>
    (a.toUInt32 <<< 24 ||| b.toUInt32 <<< 16 ||| c.toUInt32 <<< 8 ||| d.toUInt32) :: wordsOf rest
  | _ => []

/--
Takes the words of a padded message into the hash, one block after the other.
-/
def absorb (w : Words) (message : List UInt32) : Words :=
  if message.length < 16 then w
  else absorb (compress w (message.take 16)) (message.drop 16)
termination_by message.length
decreasing_by simp only [List.length_drop]; omega

/--
The SHA-256 hash of a message, as 32 bytes.
-/
def sha256 (message : List UInt8) : List UInt8 :=
  (absorb Words.initial (wordsOf (pad message))).toList.flatMap fun w => bigEndian w.toNat 4

/--
Two lower-case hexadecimal digits for each byte.
-/
def hex (bytes : List UInt8) : String :=
  String.ofList (bytes.flatMap fun b =>
    [Nat.digitChar (b.toNat / 16), Nat.digitChar (b.toNat % 16)])

end Upkeep.Digest
