import Mathlib.Algebra.Ring.Nat
import Upkeep.Metrics.Aggregator
import Upkeep.Metrics.Report

/-!
This module contains how many samples an aggregator holds, and how many a report tells of. Each line
of a report ends with the number of its samples, so that the number can be read back from its text.
-/

namespace Upkeep

namespace Dict

variable [DecidableEq κ]

theorem sum_replace (f : α → Nat) (l : List (κ × α)) (k : κ) (v : α)
    (hnodup : (l.map Prod.fst).Nodup) (hk : k ∈ l.map Prod.fst) :
    ((l.map fun e => if e.1 = k then (k, v) else e).map fun e => f e.2).sum +
        (((l.find? (·.1 = k)).map Prod.snd).map f).getD 0 =
      (l.map fun e => f e.2).sum + f v := by
  induction l with
  | nil => simp at hk
  | cons e l ih =>
    rw [List.map_cons, List.nodup_cons] at hnodup
    by_cases he : e.1 = k
    . have hrest : (l.map fun e => if e.1 = k then (k, v) else e) = l := by
        conv => rhs; rw [← List.map_id l]
        apply List.map_congr_left
        intro e' he'
        have hne : e'.1 ≠ k := by
          rintro rfl
          exact hnodup.1 (he ▸ List.mem_map_of_mem he')
        simp [hne]
      simp only [List.map_cons, hrest, he, if_true, List.sum_cons, List.find?_cons, decide_true,
        Option.map_some, Option.getD_some]
      omega
    . have hmem : k ∈ l.map Prod.fst := by
        rcases List.mem_cons.1 hk with heq | hmem
        . exact absurd heq.symm he
        . exact hmem
      have hsum := ih hnodup.2 hmem
      simp only [List.map_cons, he, if_false, List.sum_cons, List.find?_cons, decide_false]
      omega

/--
A binding changes a sum over all values by the new value less the one that it replaces.
-/
theorem sum_insert (d : Dict κ α) (f : α → Nat) (k : κ) (v : α) :
    ((d.insert k v).entries.map fun e => f e.2).sum + ((d.get? k).map f).getD 0 =
      (d.entries.map fun e => f e.2).sum + f v := by
  unfold insert
  split
  . next hk => exact sum_replace f d.entries k v d.nodup hk
  . next hk =>
    rw [d.get?_eq_none_of_not_mem k hk]
    simp

end Dict

namespace Metrics

namespace Aggregator

theorem held_eq_sum (a : Aggregator) : a.held = (a.byName.entries.map fun e => e.2.count).sum := by
  rw [held, List.sum_eq_foldl, List.foldl_map]

@[simp]
theorem keys_empty : empty.byName.keys = [] := rfl

theorem held_record (a : Aggregator) (name : String) (x : Float) :
    (a.record name x).held = a.held + 1 := by
  have hsum := a.byName.sum_insert (·.count) name (((a.byName.get? name).getD .empty).add x)
  have hold : ((a.byName.get? name).map (·.count)).getD 0 =
      ((a.byName.get? name).getD .empty).count := by
    cases a.byName.get? name <;> rfl
  rw [hold, Accumulator.count_add] at hsum
  simp only [held_eq_sum, record]
  omega

theorem mem_keys_record (a : Aggregator) (name other : String) (x : Float) :
    other ∈ (a.record name x).byName.keys ↔ other = name ∨ other ∈ a.byName.keys := by
  rw [record, Dict.keys_insert]
  split
  . next hmem =>
    constructor
    . exact Or.inr
    . rintro (rfl | h)
      . exact hmem
      . exact h
  . simp [or_comm]

theorem mem_keys_of_mem_summaries (a : Aggregator) (e : String × Stat) (he : e ∈ a.summaries) :
    e.1 ∈ a.byName.keys := by
  rw [summaries, List.mem_mergeSort] at he
  obtain ⟨entry, hentry, rfl⟩ := List.mem_map.1 he
  exact List.mem_map_of_mem hentry

theorem sum_summaries (a : Aggregator) : (a.summaries.map fun e => e.2.count).sum = a.held := by
  have hperm := (List.mergeSort_perm (a.byName.entries.map fun e => (e.1, e.2.stat))
    fun x y => decide (x.1 ≤ y.1)).map fun e => e.2.count
  rw [summaries, hperm.sum_nat, held_eq_sum, List.map_map]
  simp [Function.comp_def, Accumulator.count_stat]

end Aggregator

/--
The number at the end of a line.
-/
def Line.count (l : Line) : Nat :=
  Nat.ofDigitChars 10 (l.text.toList.reverse.takeWhile Char.isDigit).reverse 0

theorem Line.count_append (level : Severity) (start : String) (n : Nat) :
    (Line.mk level (start ++ ", count " ++ toString n)).count = n := by
  have htext : (start ++ ", count " ++ toString n).toList =
      (start.toList ++ ", count".toList) ++ ' ' :: Nat.toDigits 10 n := by
    simp [String.toList_append]
  have hdigits : ∀ c ∈ (Nat.toDigits 10 n).reverse, c.isDigit = true := by
    intro c hc
    exact Nat.isDigit_of_mem_toDigits (by decide) (by decide) (List.mem_reverse.1 hc)
  have hblank : Char.isDigit ' ' = false := by decide
  rw [count, htext, List.reverse_append, List.reverse_cons, List.append_assoc,
    List.takeWhile_append_of_pos hdigits]
  simp [hblank, Nat.ofDigitChars_ten_toDigits]

theorem count_reportLine (level : Severity) (server name : String) (s : Stat) :
    (Line.mk level (reportLine server name s)).count = s.count :=
  Line.count_append level _ s.count

theorem sum_report (level : Severity) (server : String) (summaries : List (String × Stat)) :
    ((report level server summaries).map Line.count).sum =
      (summaries.map fun e => e.2.count).sum := by
  simp [report, Function.comp_def, count_reportLine]

end Metrics

end Upkeep
