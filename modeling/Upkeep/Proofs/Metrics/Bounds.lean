import Upkeep.Metrics.Stat
import Upkeep.Proofs.Decimal.Comparison

/-!
This module contains what the bounds of a summary are. If the first sample is a number, they are the
least and the greatest of the numbers among the samples, wherever others stand between them. If it
is not, no later sample takes its place.
-/

namespace Upkeep.Metrics

open Decimal (place infinity)

/-
The least and the greatest number are found alike: `beats` says which of two numbers is kept, and
`key` puts the better one first.
-/
section Best

variable {α : Type} [LinearOrder α]

/--
Whether a double is the best number of a list.
-/
structure Best (key : Float → α) (xs : List Float) (m : Float) : Prop where
  mem : m ∈ xs
  number : m.isNaN = false
  first : ∀ x ∈ xs, x.isNaN = false → key m ≤ key x

variable (beats : Float → Float → Prop) [DecidableRel beats]

/--
What is left of two doubles if only a comparison can replace the old one.
-/
def keep (m x : Float) : Float := if beats x m then x else m

/--
The better one of two doubles. One that is not a number gives way to the other one.
-/
def better (m x : Float) : Float :=
  if m.isNaN then x else if x.isNaN then m else keep beats m x

variable {beats} {key : Float → α}
  (hbeats : ∀ x m, beats x m ↔ x.isNaN = false ∧ m.isNaN = false ∧ key x < key m)
include hbeats

theorem keep_of_isNaN {m : Float} (hm : m.isNaN = true) (x : Float) : keep beats m x = m := by
  refine if_neg fun h => ?_
  rw [((hbeats x m).1 h).2.1] at hm
  cases hm

theorem foldl_keep_of_isNaN {m : Float} (hm : m.isNaN = true) (xs : List Float) :
    xs.foldl (keep beats) m = m := by
  induction xs with
  | nil => rfl
  | cons x xs ih => rw [List.foldl_cons, keep_of_isNaN hbeats hm, ih]

theorem Best.keep {seen : List Float} {m : Float} (hm : Best key seen m) (x : Float) :
    Best key (seen ++ [x]) (keep beats m x) := by
  rw [Metrics.keep]
  split
  . next hx =>
    obtain ⟨hnumber, -, hlt⟩ := (hbeats x m).1 hx
    refine ⟨by simp, hnumber, fun y hy hynumber => ?_⟩
    rcases List.mem_append.1 hy with hy | hy
    . exact hlt.le.trans (hm.first y hy hynumber)
    . rw [List.mem_singleton.1 hy]
  . next hx =>
    refine ⟨List.mem_append_left _ hm.mem, hm.number, fun y hy hynumber => ?_⟩
    rcases List.mem_append.1 hy with hy | hy
    . exact hm.first y hy hynumber
    . rw [List.mem_singleton.1 hy] at hynumber ⊢
      exact not_lt.1 fun hlt => hx ((hbeats x m).2 ⟨hynumber, hm.number, hlt⟩)

theorem Best.foldl_keep {seen : List Float} {m : Float} (hm : Best key seen m) (xs : List Float) :
    Best key (seen ++ xs) (xs.foldl (Metrics.keep beats) m) := by
  induction xs generalizing seen m with
  | nil => rwa [List.append_nil]
  | cons x xs ih =>
    have hrest := ih (hm.keep hbeats x)
    rwa [List.append_assoc] at hrest

theorem best_foldl_keep {x : Float} (hx : x.isNaN = false) (xs : List Float) :
    Best key (x :: xs) (xs.foldl (keep beats) x) := by
  have hfirst : Best key [x] x :=
    ⟨List.mem_singleton_self x, hx, fun y hy _ => by rw [List.mem_singleton.1 hy]⟩
  exact hfirst.foldl_keep hbeats xs

theorem better_eq_keep {m : Float} (hm : m.isNaN = false) (x : Float) :
    better beats m x = keep beats m x := by
  rw [better, hm, if_neg Bool.false_ne_true]
  split
  . next hx =>
    refine (if_neg fun h => ?_).symm
    rw [((hbeats x m).1 h).1] at hx
    cases hx
  . rfl

theorem foldl_better {m : Float} (hm : m.isNaN = false) (xs : List Float) :
    xs.foldl (better beats) m = xs.foldl (keep beats) m := by
  induction xs generalizing m with
  | nil => rfl
  | cons x xs ih =>
    -- what is kept stays a number, so `better` never has to ask for one
    have hnext : (keep beats m x).isNaN = false := by
      rw [keep]
      split
      . next h => exact ((hbeats x m).1 h).1
      . exact hm
    rw [List.foldl_cons, List.foldl_cons, better_eq_keep hbeats hm, ih hnext]

/--
The best number is found from a start that no number is behind, too.
-/
theorem Best.key_foldl_better {xs : List Float} {m worst : Float} (hm : Best key xs m)
    (hworst : worst.isNaN = false) (hlast : ∀ x, key x ≤ key worst) :
    key m = key (xs.foldl (better beats) worst) ∧
      (xs.foldl (better beats) worst).isNaN = false := by
  have hbest := best_foldl_keep hbeats hworst xs
  rw [← foldl_better hbeats hworst] at hbest
  refine ⟨le_antisymm ?_ (hbest.first m (List.mem_cons_of_mem _ hm.mem) hm.number), hbest.number⟩
  rcases List.mem_cons.1 hbest.mem with heq | hmem
  . rw [heq]
    exact hlast m
  . exact hm.first _ hmem hbest.number

end Best

/--
Whether two doubles are the bounds of a list: numbers of the list between which all its numbers lie.
-/
structure Bounds (xs : List Float) (low high : Float) : Prop where
  low_mem : low ∈ xs
  high_mem : high ∈ xs
  low_number : low.isNaN = false
  high_number : high.isNaN = false
  between : ∀ x ∈ xs, x.isNaN = false → low ≤ x ∧ x ≤ high

/--
The least number of a list, found from positive infinity.
-/
def least (xs : List Float) : Float := xs.foldl (better (· < ·)) infinity

/--
The greatest number of a list, found from negative infinity.
-/
def greatest (xs : List Float) : Float := xs.foldl (better (· > ·)) (-infinity)

theorem gt_iff (x m : Float) :
    x > m ↔ x.isNaN = false ∧ m.isNaN = false ∧
      OrderDual.toDual (place x) < OrderDual.toDual (place m) := by
  rw [OrderDual.toDual_lt_toDual, gt_iff_lt, Decimal.lt_iff]
  exact and_left_comm

namespace Accumulator

theorem foldl_add (a : Accumulator) (ha : a.count ≠ 0) (xs : List Float) :
    (xs.foldl add a).min = xs.foldl (keep (· < ·)) a.min ∧
      (xs.foldl add a).max = xs.foldl (keep (· > ·)) a.max := by
  induction xs generalizing a with
  | nil => exact ⟨rfl, rfl⟩
  | cons x xs ih =>
    have hadd : (a.add x).min = keep (· < ·) a.min x ∧ (a.add x).max = keep (· > ·) a.max x := by
      rw [add, if_neg ha]
      exact ⟨rfl, rfl⟩
    have hcount : (a.add x).count ≠ 0 := by
      rw [count_add]
      omega
    rw [List.foldl_cons, List.foldl_cons, List.foldl_cons, ← hadd.1, ← hadd.2]
    exact ih (a.add x) hcount

/--
The bounds of a summary are what its comparisons leave of the first sample.
-/
theorem stat_ofList_cons (x : Float) (xs : List Float) :
    (ofList (x :: xs)).stat.min = xs.foldl (keep (· < ·)) x ∧
      (ofList (x :: xs)).stat.max = xs.foldl (keep (· > ·)) x := by
  have hcount : (ofList (x :: xs)).count ≠ 0 := by
    rw [count_ofList]
    exact Nat.succ_ne_zero _
  rw [stat, if_neg hcount]
  exact foldl_add ⟨x, x, x, 1⟩ Nat.one_ne_zero xs

/--
A summary counts all samples. If the first of them is a number, its bounds are the least and the
greatest of the numbers among them, whatever stands between. If the first one is not a number,
neither are the bounds, whatever comes later.
-/
theorem bounds_of_first (x : Float) (xs : List Float) :
    (ofList (x :: xs)).stat.count = (x :: xs).length ∧
    let s := (ofList (x :: xs)).stat
    (x.isNaN = false →
      Bounds (x :: xs) s.min s.max ∧
      (s.min == least (x :: xs)) = true ∧ (s.max == greatest (x :: xs)) = true) ∧
    (x.isNaN = true → s.min.isNaN = true ∧ s.max.isNaN = true) := by
  have hcount : (ofList (x :: xs)).stat.count = (x :: xs).length := by
    rw [count_stat, count_ofList]
  have hs := stat_ofList_cons x xs
  generalize (ofList (x :: xs)).stat = s at hcount hs ⊢
  refine ⟨hcount, fun hx => ?_, fun hx => ?_⟩
  . have hmin : Best place (x :: xs) s.min := hs.1 ▸ best_foldl_keep Decimal.lt_iff hx xs
    have hmax : Best (fun y => OrderDual.toDual (place y)) (x :: xs) s.max :=
      hs.2 ▸ best_foldl_keep gt_iff hx xs
    have hinf : infinity.isNaN = false := rfl
    have hneg : (-infinity).isNaN = false := rfl
    have hleast := hmin.key_foldl_better Decimal.lt_iff hinf Decimal.place_le_infinity
    have hgreatest := hmax.key_foldl_better gt_iff hneg
      fun y => OrderDual.toDual_le_toDual.2 (Decimal.place_neg_infinity_le y)
    refine ⟨⟨hmin.mem, hmax.mem, hmin.number, hmax.number, fun y hy hynumber => ⟨?_, ?_⟩⟩, ?_, ?_⟩
    . exact (Decimal.le_iff _ _).2 ⟨hmin.number, hynumber, hmin.first y hy hynumber⟩
    . exact (Decimal.le_iff _ _).2
        ⟨hynumber, hmax.number, OrderDual.toDual_le_toDual.1 (hmax.first y hy hynumber)⟩
    . exact (Decimal.beq_iff _ _).2 ⟨hmin.number, hleast.2, hleast.1⟩
    . exact (Decimal.beq_iff _ _).2
        ⟨hmax.number, hgreatest.2, OrderDual.toDual_inj.1 hgreatest.1⟩
  . rw [hs.1, hs.2, foldl_keep_of_isNaN Decimal.lt_iff hx, foldl_keep_of_isNaN gt_iff hx]
    exact ⟨hx, hx⟩

-- a sample in between that is not a number is passed over
example :
    let s := (ofList [1, 0 / 0, -infinity, 2]).stat
    (s.min == -infinity) = true ∧ (s.max == 2) = true ∧ s.count = 4 := by
  decide +kernel

/--
A first sample that is not a number hides the bounds of all that follow.
-/
theorem first_sample_hides_bounds :
    let xs : List Float := [0 / 0, 1]
    let s := (ofList xs).stat
    (∃ x ∈ xs, x.isNaN = false) ∧ (least xs == 1) = true ∧ (greatest xs == 1) = true ∧
      s.min.isNaN = true ∧ s.max.isNaN = true ∧ ¬Bounds xs s.min s.max := by
  intro xs s
  have hmin : s.min.isNaN = true := by decide +kernel
  have hmax : s.max.isNaN = true := by decide +kernel
  have hone : (1 : Float) ∈ xs := List.mem_cons_of_mem _ (List.mem_singleton_self 1)
  refine ⟨⟨1, hone, by decide +kernel⟩, by decide +kernel, by decide +kernel, hmin, hmax,
    fun hbounds => ?_⟩
  rw [hbounds.low_number] at hmin
  cases hmin

end Accumulator

end Upkeep.Metrics
