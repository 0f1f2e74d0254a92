/-!
This module contains spans of time, counted in nanoseconds, and their text in the largest unit that
fits.
-/

namespace Upkeep

structure Span where
  nanos : Nat
  deriving DecidableEq, Inhabited

namespace Span

def zero : Span := ⟨0⟩

def ofMillis (n : Nat) : Span := ⟨n * 1000000⟩

def ofSeconds (n : Nat) : Span := ⟨n * 1000000000⟩

def millis (s : Span) : Nat := s.nanos / 1000000

instance : LE Span := ⟨fun a b => a.nanos ≤ b.nanos⟩

instance (a b : Span) : Decidable (a ≤ b) := inferInstanceAs (Decidable (a.nanos ≤ b.nanos))

instance : Add Span := ⟨fun a b => ⟨a.nanos + b.nanos⟩⟩

instance : Min Span := ⟨fun a b => if a.nanos ≤ b.nanos then a else b⟩

@[simp]
theorem nanos_add (a b : Span) : (a + b).nanos = a.nanos + b.nanos := rfl

theorem le_def (a b : Span) : a ≤ b ↔ a.nanos ≤ b.nanos := Iff.rfl

/--
The digits after the point for `n` parts of `10 ^ places`, without zeros at the end.
-/
def fraction (n places : Nat) : List Char :=
  let ds := Nat.toDigits 10 n
  let padded := List.replicate (places - ds.length) '0' ++ ds
  (padded.reverse.dropWhile (· = '0')).reverse

/--
A number of units, of which each has `10 ^ places` parts, with its parts as a decimal fraction.
-/
def amount (n places : Nat) (unit : String) : String :=
  let rest := n % Nat.pow 10 places
  let point := if rest = 0 then "" else "." ++ String.ofList (fraction rest places)
  toString (n / Nat.pow 10 places) ++ point ++ unit

/--
The text of a span: seconds, milliseconds, microseconds or nanoseconds.
-/
def text (s : Span) : String :=
  if 1000000000 ≤ s.nanos then amount s.nanos 9 "s"
  else if 1000000 ≤ s.nanos then amount s.nanos 6 "ms"
  else if 1000 ≤ s.nanos then amount s.nanos 3 "µs"
  else amount s.nanos 0 "ns"

end Span

end Upkeep
