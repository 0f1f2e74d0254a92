import Mathlib.Data.List.Induction
import Upkeep.Metrics.Sink
import Upkeep.Proofs.Metrics.Aggregate
import Upkeep.Proofs.Text.ByteOrder

/-!
This module contains what a report tells of a list of samples: one line for each name that a sample
has, in the order of the bytes of the names, with what the values of this name come to.
-/

namespace Upkeep

namespace Metrics

/--
The values of the samples with a name, oldest first.
-/
def valuesOf (name : String) (xs : List Sample) : List Float :=
  (xs.filter (·.name = name)).map (·.value)

/--
Whether rows summarize a list of samples: one row for each name, in the order of the bytes of the
names, with what the values of this name come to.
-/
structure Summarizes (xs : List Sample) (rows : List (String × Stat)) : Prop where
  sorted : (rows.map Prod.fst).Pairwise fun a b => Text.bytes a < Text.bytes b
  names : ∀ name, name ∈ rows.map Prod.fst ↔ ∃ x ∈ xs, x.name = name
  stats : ∀ row ∈ rows, row.2 = (Accumulator.ofList (valuesOf row.1 xs)).stat

/--
Whether lines tell of a list of samples: one line for each name, in the order of the bytes of the
names.
-/
def Tells (settings : Settings) (xs : List Sample) (lines : List Line) : Prop :=
  ∃ names : List String,
    names.Pairwise (fun a b => Text.bytes a < Text.bytes b) ∧
    (∀ name, name ∈ names ↔ ∃ x ∈ xs, x.name = name) ∧
    lines = names.map fun name =>
      ⟨settings.level,
        reportLine settings.server name (Accumulator.ofList (valuesOf name xs)).stat⟩

namespace Aggregator

/--
What is held of a list of samples.
-/
def ofSamples (xs : List Sample) : Aggregator :=
  xs.foldl (fun a x => a.record x.name x.value) .empty

theorem ofSamples_concat (xs : List Sample) (x : Sample) :
    ofSamples (xs ++ [x]) = (ofSamples xs).record x.name x.value := by
  simp [ofSamples]

theorem held_ofSamples (xs : List Sample) : (ofSamples xs).held = xs.length := by
  induction xs using List.reverseRecOn with
  | nil => rfl
  | append_singleton xs x ih => rw [ofSamples_concat, held_record, ih, List.length_append,
      List.length_singleton]

theorem mem_keys_ofSamples (xs : List Sample) (name : String) :
    name ∈ (ofSamples xs).byName.keys ↔ ∃ x ∈ xs, x.name = name := by
  induction xs using List.reverseRecOn with
  | nil => simp [ofSamples]
  | append_singleton xs x ih =>
    rw [ofSamples_concat, mem_keys_record, ih]
    simp [or_comm, eq_comm]

theorem getD_get?_ofSamples (xs : List Sample) (name : String) :
    ((ofSamples xs).byName.get? name).getD .empty = .ofList (valuesOf name xs) := by
  induction xs using List.reverseRecOn with
  | nil => rfl
  | append_singleton xs x ih =>
    rw [ofSamples_concat, get?_record, valuesOf, List.filter_append, List.map_append, ← valuesOf]
    by_cases hname : name = x.name
    . subst hname
      simp [ih, Accumulator.ofList_concat]
    . simpa [hname, Ne.symm hname] using ih

theorem snd_of_mem_summaries {xs : List Sample} {e : String × Stat}
    (he : e ∈ (ofSamples xs).summaries) :
    e.2 = (Accumulator.ofList (valuesOf e.1 xs)).stat := by
  rw [summaries, List.mem_mergeSort] at he
  obtain ⟨entry, hentry, rfl⟩ := List.mem_map.1 he
  have hget := (ofSamples xs).byName.get?_of_mem hentry
  rw [← getD_get?_ofSamples, hget]
  rfl

theorem perm_names (a : Aggregator) : (a.summaries.map Prod.fst).Perm a.byName.keys := by
  have hperm := (List.mergeSort_perm (a.byName.entries.map fun e => (e.1, e.2.stat))
    fun x y => decide (x.1 ≤ y.1)).map Prod.fst
  rw [List.map_map] at hperm
  exact hperm

theorem pairwise_names (a : Aggregator) : (a.summaries.map Prod.fst).Pairwise (· < ·) := by
  have hsorted : a.summaries.Pairwise fun x y => decide (x.1 ≤ y.1) = true := by
    apply List.pairwise_mergeSort
    . intro x y z hxy hyz
      exact decide_eq_true (String.le_trans (of_decide_eq_true hxy) (of_decide_eq_true hyz))
    . intro x y
      simpa using String.le_total x.1 y.1
  have hnodup : (a.summaries.map Prod.fst).Nodup := a.perm_names.nodup_iff.2 a.byName.nodup
  rw [List.pairwise_map]
  rw [List.Nodup, List.pairwise_map] at hnodup
  refine (hsorted.and hnodup).imp ?_
  rintro x y ⟨hle, hne⟩
  exact Std.lt_of_le_of_ne (of_decide_eq_true hle) hne

/--
The summaries are those of the samples that were held.
-/
theorem summarizes_summaries (xs : List Sample) : Summarizes xs (ofSamples xs).summaries where
  sorted := (ofSamples xs).pairwise_names.imp Text.bytes_lt_of_lt
  names := by
    intro name
    rw [(ofSamples xs).perm_names.mem_iff, mem_keys_ofSamples]
  stats := by
    intro row hrow
    exact snd_of_mem_summaries hrow

/--
A report tells of the samples that were held.
-/
theorem tells_report (settings : Settings) (xs : List Sample) :
    Tells settings xs (report settings.level settings.server (ofSamples xs).summaries) := by
  obtain ⟨hsorted, hnames, hstats⟩ := summarizes_summaries xs
  refine ⟨(ofSamples xs).summaries.map Prod.fst, hsorted, hnames, ?_⟩
  rw [report, List.map_map]
  apply List.map_congr_left
  intro e he
  rw [hstats e he]
  rfl

end Aggregator

end Metrics

end Upkeep
