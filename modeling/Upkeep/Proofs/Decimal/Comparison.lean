import Mathlib.Data.Prod.Lex

/-!
This module contains how doubles compare. One that is not a number compares with nothing. All others
have a place on a line from negative to positive infinity, and they compare as their places do.
-/

namespace Upkeep.Decimal

open Float.Model (UnpackedFloat)

/--
The place of an unpacked double: its side of zero, then its exponent and its mantissa, which count
the other way below zero. The two zeros have one place.
-/
def placeOf : UnpackedFloat → Int ×ₗ Int ×ₗ Int
  | .infinity .negative => toLex (-2, toLex (0, 0))
  | .finite .negative mantissa exponent _ => toLex (-1, toLex (-exponent, -(mantissa : Int)))
  | .zero _ => toLex (0, toLex (0, 0))
  | .finite .positive mantissa exponent _ => toLex (1, toLex (exponent, (mantissa : Int)))
  | .infinity .positive => toLex (2, toLex (0, 0))
  | .notANumber => toLex (0, toLex (0, 0))

theorem compare_toLex {α β : Type} [LinearOrder α] [LinearOrder β] (a b : α) (p q : β) :
    compare (toLex (a, p)) (toLex (b, q)) = (compare a b).then (compare p q) := by
  rw [Prod.Lex.compare_def]
  rfl

theorem compare_natCast (m n : Nat) : compare (m : Int) (n : Int) = compare m n := by
  have hmono : StrictMono fun k : Nat => (k : Int) := fun _ _ h => Int.ofNat_lt.2 h
  rw [← cmp_eq_compare, ← cmp_eq_compare]
  exact hmono.cmp_map_eq m n

theorem compare_neg (a b : Int) : compare (-a) (-b) = compare b a := by
  have hanti : StrictAnti fun k : Int => -k := fun _ _ h => Int.neg_lt_neg h
  rw [← cmp_eq_compare, ← cmp_eq_compare]
  exact hanti.cmp_map_eq a b

theorem compare_of_isNaN {a b : UnpackedFloat} (h : a.isNaN = true ∨ b.isNaN = true) :
    a.compare b = none := by
  rcases h with h | h
  . cases a with
    | notANumber => rfl
    | infinity | zero | finite => cases h
  . cases b with
    | notANumber => rcases a with (_ | _) | _ | _ | ⟨_ | _, _⟩ <;> rfl
    | infinity | zero | finite => cases h

theorem compare_of_number {a b : UnpackedFloat} (ha : a.isNaN = false) (hb : b.isNaN = false) :
    a.compare b = some (compare (placeOf a) (placeOf b)) := by
  -- the side of zero decides for any two kinds but finite ones of the same sign
  cases a with
  | notANumber => cases ha
  | infinity s =>
    cases b with
    | notANumber => cases hb
    | infinity t | zero t | finite t => cases s <;> cases t <;> rfl
  | zero s =>
    cases b with
    | notANumber => cases hb
    | infinity t | zero t | finite t => cases t <;> rfl
  | finite s m e hm =>
    cases b with
    | notANumber => cases hb
    | infinity t | zero t => cases s <;> cases t <;> rfl
    | finite t n f hn =>
      cases s <;> cases t
      case negative.positive | positive.negative => rfl
      case negative.negative =>
        change some ((compare e f).then (compare m n)).swap = some (compare (toLex _) (toLex _))
        rw [compare_toLex, compare_toLex, compare_neg e, compare_neg m, compare_natCast,
          Ordering.swap_then, ← Std.OrientedCmp.eq_swap, ← Std.OrientedCmp.eq_swap]
        rfl
      case positive.positive =>
        change some ((compare e f).then (compare m n)) = some (compare (toLex _) (toLex _))
        rw [compare_toLex, compare_toLex, compare_natCast]
        rfl

theorem compare_eq_some_iff (a b : UnpackedFloat) (o : Ordering) :
    a.compare b = some o ↔
      a.isNaN = false ∧ b.isNaN = false ∧ compare (placeOf a) (placeOf b) = o := by
  constructor
  . intro h
    have ha : a.isNaN = false := by
      by_contra hnot
      rw [Bool.not_eq_false] at hnot
      cases (compare_of_isNaN (.inl hnot)).symm.trans h
    have hb : b.isNaN = false := by
      by_contra hnot
      rw [Bool.not_eq_false] at hnot
      cases (compare_of_isNaN (.inr hnot)).symm.trans h
    rw [compare_of_number ha hb] at h
    exact ⟨ha, hb, Option.some.inj h⟩
  . rintro ⟨ha, hb, h⟩
    rw [compare_of_number ha hb, h]

/--
The place of a double.
-/
def place (x : Float) : Int ×ₗ Int ×ₗ Int := placeOf x.toModel.unpack

theorem lt_iff (x y : Float) : x < y ↔ x.isNaN = false ∧ y.isNaN = false ∧ place x < place y := by
  have hlt : x < y ↔ x.toModel.unpack.compare y.toModel.unpack = some .lt := by
    change x.lt y = true ↔ _
    rw [Float.lt, decide_eq_true_iff]
    exact beq_iff_eq
  rw [hlt, compare_eq_some_iff, compare_lt_iff_lt]
  rfl

theorem beq_iff (x y : Float) :
    (x == y) = true ↔ x.isNaN = false ∧ y.isNaN = false ∧ place x = place y := by
  have hbeq : (x == y) = true ↔ x.toModel.unpack.compare y.toModel.unpack = some .eq := by
    change (x.toModel.unpack.compare y.toModel.unpack == some .eq) = true ↔ _
    exact beq_iff_eq
  rw [hbeq, compare_eq_some_iff, compare_eq_iff_eq]
  rfl

theorem le_iff (x y : Float) : x ≤ y ↔ x.isNaN = false ∧ y.isNaN = false ∧ place x ≤ place y := by
  have hle : x ≤ y ↔ x.toModel.unpack.compare y.toModel.unpack = some .lt ∨
      x.toModel.unpack.compare y.toModel.unpack = some .eq := by
    change x.le y = true ↔ _
    rw [Float.le, decide_eq_true_iff]
    change (x.toModel.unpack.compare y.toModel.unpack).any (·.isLE) = true ↔ _
    cases x.toModel.unpack.compare y.toModel.unpack with
    | none => simp
    | some o => cases o <;> simp
  rw [hle, compare_eq_some_iff, compare_eq_some_iff, compare_lt_iff_lt, compare_eq_iff_eq,
    le_iff_lt_or_eq, ← and_or_left, ← and_or_left]
  rfl

theorem placeOf_le (a : UnpackedFloat) : placeOf a ≤ placeOf (.infinity .positive) := by
  rw [← compare_le_iff_le]
  rcases a with (_ | _) | _ | _ | ⟨_ | _, m, e, hm⟩ <;> exact Ordering.noConfusion

theorem le_placeOf (a : UnpackedFloat) : placeOf (.infinity .negative) ≤ placeOf a := by
  rw [← compare_le_iff_le]
  rcases a with (_ | _) | _ | _ | ⟨_ | _, m, e, hm⟩ <;> exact Ordering.noConfusion

/--
The double above all numbers.
-/
def infinity : Float := 1 / 0

theorem place_le_infinity (x : Float) : place x ≤ place infinity := by
  have hunpack : infinity.toModel.unpack = .infinity .positive := rfl
  rw [place, place, hunpack]
  exact placeOf_le _

theorem place_neg_infinity_le (x : Float) : place (-infinity) ≤ place x := by
  have hunpack : (-infinity).toModel.unpack = .infinity .negative := rfl
  rw [place, place, hunpack]
  exact le_placeOf _

end Upkeep.Decimal
