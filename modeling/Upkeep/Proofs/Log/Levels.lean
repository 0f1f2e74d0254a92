import Upkeep.Log.Settings
import Upkeep.Metrics.Report

/-!
This module contains the texts that name a level, for logs and for reports. Both readings of a text
give the same level for all words that name a level of logs, but for one: `fatal` is the level of
errors for a log, and no level at all for a report.
-/

namespace Upkeep

namespace Text

/--
Whether a text is a word with nothing but blanks around it. The case of its letters does not matter.
-/
def Spells (raw word : String) : Prop :=
  ∃ before text after, raw = before ++ text ++ after ∧ isBlankText before = true ∧
    isBlankText after = true ∧ lower text = word

theorem isBlank_eq_false_of_le {c : Char} (hlow : 65 ≤ c.toNat) (hhigh : c.toNat ≤ 122) :
    isBlank c = false := by
  simp only [isBlank, Bool.or_eq_false_iff, Bool.and_eq_false_iff, decide_eq_false_iff_not]
  omega

theorem isBlank_toLower (c : Char) : isBlank c.toLower = isBlank c := by
  unfold Char.toLower
  split
  . next h =>
    have hlow : 65 ≤ c.toNat := h.1
    have hhigh : c.toNat ≤ 90 := h.2
    have hsum : (c.val + ('a'.val - 'A'.val)).toNat = c.toNat + 32 := by
      have hdistance : ('a'.val - 'A'.val).toNat = 32 := rfl
      rw [UInt32.toNat_add, hdistance]
      exact Nat.mod_eq_of_lt (Nat.lt_of_le_of_lt (Nat.add_le_add_right hhigh 32) (by decide))
    rw [isBlank_eq_false_of_le hlow (by omega)]
    apply isBlank_eq_false_of_le
    . exact le_of_le_of_eq (Nat.le_add_right_of_le hlow) hsum.symm
    . exact le_of_eq_of_le hsum (Nat.add_le_add_right hhigh 32)
  . rfl

theorem dropWhile_append_of_forall_not {p : Char → Bool} {cs : List Char} (hne : cs ≠ [])
    (hcs : ∀ c ∈ cs, p c = false) (ds : List Char) : (cs ++ ds).dropWhile p = cs ++ ds := by
  cases cs with
  | nil => exact absurd rfl hne
  | cons c cs => exact List.dropWhile_cons_of_neg (by simp [hcs c])

theorem exists_around_trimChars (cs : List Char) :
    ∃ before after, cs = before ++ trimChars cs ++ after ∧ before.all isBlank = true ∧
      after.all isBlank = true := by
  let rest := cs.dropWhile isBlank
  refine ⟨cs.takeWhile isBlank, (rest.reverse.takeWhile isBlank).reverse, ?_, ?_, ?_⟩
  . rw [trimChars, List.append_assoc, ← List.reverse_append, List.takeWhile_append_dropWhile,
      List.reverse_reverse, List.takeWhile_append_dropWhile]
  . exact List.all_takeWhile
  . rw [List.all_reverse]
    exact List.all_takeWhile

theorem trimChars_around {before cs after : List Char} (hbefore : before.all isBlank = true)
    (hafter : after.all isBlank = true) (hcs : ∀ c ∈ cs, isBlank c = false) :
    trimChars (before ++ cs ++ after) = cs := by
  by_cases hne : cs = []
  . rw [hne, List.append_nil, trimChars_eq_nil_iff, List.all_append, hbefore, hafter, Bool.and_self]
  . have hback : cs.reverse.dropWhile isBlank = cs.reverse := by
      have hreverse := dropWhile_append_of_forall_not (List.reverse_ne_nil_iff.2 hne)
        (fun c hc => hcs c (List.mem_reverse.1 hc)) []
      rwa [List.append_nil] at hreverse
    rw [← List.all_reverse, List.all_eq_true] at hafter
    rw [trimChars, List.append_assoc, List.dropWhile_append_of_pos (List.all_eq_true.1 hbefore),
      dropWhile_append_of_forall_not hne hcs, List.reverse_append,
      List.dropWhile_append_of_pos hafter, hback, List.reverse_reverse]

/--
A text is a word in lower case after trimming just if it spells the word.
-/
theorem lower_trim_eq_iff {word : String} (hword : word.toList.any isBlank = false) (raw : String) :
    lower (trim raw) = word ↔ Spells raw word := by
  constructor
  . intro h
    -- what trimming takes away is around the word
    obtain ⟨before, after, hraw, hbefore, hafter⟩ := exists_around_trimChars raw.toList
    refine ⟨.ofList before, trim raw, .ofList after, ?_, ?_, ?_, h⟩
    . rw [trim, ← String.ofList_append, ← String.ofList_append, ← hraw, String.ofList_toList]
    . rwa [isBlankText, String.toList_ofList]
    . rwa [isBlankText, String.toList_ofList]
  . rintro ⟨before, text, after, rfl, hbefore, hafter, rfl⟩
    have htext : ∀ c ∈ text.toList, isBlank c = false := by
      -- the case of a letter does not make a blank of it
      intro c hc
      have hmem : c.toLower ∈ (lower text).toList := by
        rw [lower, String.toList_map]
        exact List.mem_map_of_mem hc
      rw [← isBlank_toLower]
      exact Bool.eq_false_iff.2 (List.any_eq_false.1 hword _ hmem)
    rw [trim, String.toList_append, String.toList_append, trimChars_around hbefore hafter htext,
      String.ofList_toList]

end Text

namespace Log

open Text

def levelWords : Severity → List String
  | .debug => ["debug"]
  | .info => ["info"]
  | .warn => ["warn", "warning"]
  | .error => ["error", "fatal"]

theorem level?_eq_some_iff (raw : String) (l : Severity) :
    level? raw = some l ↔ lower (trim raw) ∈ levelWords l := by
  unfold level?
  generalize lower (trim raw) = word
  split <;> cases l <;> simp_all [levelWords]

theorem reportLevel_of_known {raw : String} {l : Severity} (h : level? raw = some l) :
    Metrics.reportLevel raw = if lower (trim raw) = "fatal" then .info else l := by
  rw [level?_eq_some_iff] at h
  unfold Metrics.reportLevel
  generalize lower (trim raw) = word at h
  cases l with
  | debug | info =>
    rw [levelWords, List.mem_singleton] at h
    rw [h]
    rfl
  | warn | error =>
    rw [levelWords, List.mem_cons, List.mem_singleton] at h
    rcases h with h | h <;> rw [h] <;> rfl

theorem reportLevel_of_unknown {raw : String} (h : level? raw = none) :
    Metrics.reportLevel raw = .info := by
  unfold level? at h
  unfold Metrics.reportLevel
  generalize lower (trim raw) = word at h
  split
  case h_5 => rfl
  all_goals cases h

/--
The texts that name a level of logs are its words with blanks around them, in any case. Each of them
names the same level for reports, but for `fatal`, which reports take for no level. Reports have the
level `info` where no level is named.
-/
theorem level_readings_agree_unless_fatal (raw : String) :
    (∀ l, level? raw = some l ↔ ∃ word ∈ levelWords l, Spells raw word) ∧
    (∀ l, level? raw = some l → (Metrics.reportLevel raw = l ↔ ¬Spells raw "fatal")) ∧
    (Spells raw "fatal" → level? raw = some .error ∧ Metrics.reportLevel raw = .info) ∧
    (level? raw = none → Metrics.reportLevel raw = .info) := by
  have hfatal : lower (trim raw) = "fatal" ↔ Spells raw "fatal" :=
    lower_trim_eq_iff (by decide) raw
  have hword : ∀ l, ∀ word ∈ levelWords l, word.toList.any isBlank = false := by
    intro l
    cases l <;> decide
  have herror : Spells raw "fatal" → level? raw = some .error := by
    intro hspells
    rw [level?_eq_some_iff, hfatal.2 hspells]
    decide
  refine ⟨fun l => ?_, fun l hl => ?_, fun hspells => ⟨herror hspells, ?_⟩, reportLevel_of_unknown⟩
  . rw [level?_eq_some_iff]
    constructor
    . intro hmem
      exact ⟨_, hmem, (lower_trim_eq_iff (hword l _ hmem) raw).1 rfl⟩
    . rintro ⟨word, hmem, hspells⟩
      rwa [(lower_trim_eq_iff (hword l word hmem) raw).2 hspells]
  . rw [reportLevel_of_known hl, ← hfatal]
    split
    . next heq =>
      have hlevel := Option.some.inj (hl.symm.trans (herror (hfatal.1 heq)))
      simp [heq, hlevel]
    . next hne => simp [hne]
  . rw [reportLevel_of_known (herror hspells), if_pos (hfatal.2 hspells)]

-- a blank of several bytes before the word, and letters in any case
example :
    level? "\u2003Warning\n" = some .warn ∧ Metrics.reportLevel "\u2003Warning\n" = .warn := by
  decide +kernel

/--
A log takes `fatal` for the level of errors, a report does not.
-/
theorem fatal_is_info_for_reports :
    level? "fatal" = some .error ∧ Metrics.reportLevel "fatal" = .info := by
  decide +kernel

end Log

end Upkeep
