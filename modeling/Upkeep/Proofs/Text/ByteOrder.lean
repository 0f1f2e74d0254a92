import Mathlib.Data.List.Lex
import Mathlib.Tactic.SplitIfs

/-!
This module contains the proof that texts are in the order of their bytes: of two texts, the one
that comes first by its characters also comes first by its bytes.
-/

namespace Upkeep.Text

def bytes (s : String) : List UInt8 := s.toUTF8.data.toList

theorem bytes_eq_flatMap (s : String) : bytes s = s.toList.flatMap String.utf8EncodeChar := by
  rw [bytes, String.toUTF8_eq_toByteArray, ← String.utf8Encode_toList, List.utf8Encode]
  simp

/--
Whether one list is smaller than another one where they first differ, and neither of them ends
before.
-/
def Precedes : List UInt8 → List UInt8 → Prop
  | x :: us, y :: vs => x < y ∨ x = y ∧ Precedes us vs
  | _, _ => False

theorem Precedes.append_lt {us vs : List UInt8} (h : Precedes us vs) (s t : List UInt8) :
    us ++ s < vs ++ t := by
  induction us generalizing vs with
  | nil => exact absurd h (by simp [Precedes])
  | cons x us ih =>
    cases vs with
    | nil => exact absurd h (by simp [Precedes])
    | cons y vs =>
      rw [List.cons_append, List.cons_append, List.cons_lt_cons_iff]
      exact h.imp_right fun ⟨hxy, hrest⟩ => ⟨hxy, ih hrest⟩

theorem toNat_lt_of_char (c : Char) : c.val.toNat < 1114112 := by
  rcases c.valid with hlow | ⟨-, hhigh⟩
  . exact Nat.lt_trans hlow (by decide)
  . exact hhigh

theorem precedes_utf8EncodeChar {c d : Char} (h : c < d) :
    Precedes (String.utf8EncodeChar c) (String.utf8EncodeChar d) := by
  have hnat : c.val.toNat < d.val.toNat := h
  have hmax := toNat_lt_of_char d
  generalize hv : c.val.toNat = v at hnat
  generalize hw : d.val.toNat = w at hnat hmax
  have hsquare : ∀ n, n / 4096 = n / 64 / 64 := fun n => (Nat.div_div_eq_div_mul n 64 64).symm
  have hcube : ∀ n, n / 262144 = n / 64 / 64 / 64 := by
    intro n
    rw [← hsquare, Nat.div_div_eq_div_mul]
  simp only [String.utf8EncodeChar, hv, hw, hsquare, hcube]
  -- the more bytes a character has, the larger is the first of them
  split_ifs <;>
    simp only [Precedes, ← UInt8.toNat_inj, UInt8.lt_iff_toNat_lt, UInt8.toNat_ofNat', and_false,
      or_false] <;>
    omega

theorem flatMap_lt_of_lt {cs ds : List Char} (h : cs < ds) :
    cs.flatMap String.utf8EncodeChar < ds.flatMap String.utf8EncodeChar := by
  induction h with
  | @nil d ds =>
    rw [List.flatMap_nil, List.flatMap_cons]
    cases hd : String.utf8EncodeChar d with
    | nil => exact absurd hd (String.utf8EncodeChar_ne_nil)
    | cons x us => exact List.nil_lt_cons ..
  | rel hcd =>
    rw [List.flatMap_cons, List.flatMap_cons]
    exact (precedes_utf8EncodeChar hcd).append_lt _ _
  | cons hrest ih =>
    rw [List.flatMap_cons, List.flatMap_cons]
    exact List.append_left_lt ih

/--
The order of texts is that of their bytes.
-/
theorem bytes_lt_of_lt {s t : String} (h : s < t) : bytes s < bytes t := by
  rw [bytes_eq_flatMap, bytes_eq_flatMap]
  exact flatMap_lt_of_lt (String.lt_iff.1 h)

end Upkeep.Text
