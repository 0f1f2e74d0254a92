/-!
This module contains blank characters, trimming and the ASCII lower case. `trim` removes blanks at
both ends and keeps everything between.
-/

namespace Upkeep.Text

/--
Whether a character has the Unicode property White_Space.
-/
def isBlank (c : Char) : Bool :=
  let n := c.toNat
  (0x09 ≤ n && n ≤ 0x0d) || n = 0x20 || n = 0x85 || n = 0xa0 || n = 0x1680 ||
    (0x2000 ≤ n && n ≤ 0x200a) || n = 0x2028 || n = 0x2029 || n = 0x202f || n = 0x205f ||
    n = 0x3000

/--
Removes blanks at both ends of a list of characters.
-/
def trimChars (cs : List Char) : List Char :=
  ((cs.dropWhile isBlank).reverse.dropWhile isBlank).reverse

/--
Removes blanks at both ends of a text.
-/
def trim (s : String) : String := String.ofList (trimChars s.toList)

def isBlankText (s : String) : Bool := s.toList.all isBlank

/--
The text with the letters `A` to `Z` in lower case and all else unchanged.
-/
def lower (s : String) : String := s.map Char.toLower

theorem dropWhile_append_singleton_ne_nil (p : Char → Bool) (cs : List Char) (c : Char)
    (h : ¬ p c = true) : (cs ++ [c]).dropWhile p ≠ [] := by
  induction cs with
  | nil => simp [h]
  | cons d cs ih =>
    by_cases hd : p d = true
    · simpa [hd] using ih
    · simp [hd]

theorem trimChars_eq_nil_iff (cs : List Char) : trimChars cs = [] ↔ cs.all isBlank = true := by
  induction cs with
  | nil => simp [trimChars]
  | cons c cs ih =>
    by_cases h : isBlank c = true
    · simpa [trimChars, h] using ih
    · have hne := dropWhile_append_singleton_ne_nil isBlank cs.reverse c h
      rw [trimChars, List.dropWhile_cons_of_neg h, List.reverse_cons, List.reverse_eq_nil_iff,
        List.all_cons, Bool.and_eq_true]
      exact iff_of_false hne fun hall => h hall.1

end Upkeep.Text
