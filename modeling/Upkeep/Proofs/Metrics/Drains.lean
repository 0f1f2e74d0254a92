import Mathlib.Data.List.Forall2
import Upkeep.Proofs.Metrics.Summary
import Upkeep.Proofs.Run

/-!
This module contains what the drains of an aggregator give. They cut the samples that are recorded
into periods: each drain summarizes the samples since the one before it, name by name.
-/

namespace Upkeep.Metrics

inductive AggregatorStep where
  | record (x : Sample)
  | drain

/--
The samples of each period that a drain has ended, and those since the last drain.
-/
structure Periods where
  ended : List (List Sample)
  current : List Sample

namespace Periods

/--
The periods with one more step.
-/
def next (p : Periods) : AggregatorStep → Periods
  | .record x => { p with current := p.current ++ [x] }
  | .drain => ⟨p.ended ++ [p.current], []⟩

/--
The periods of a series of steps.
-/
def ofSteps (steps : List AggregatorStep) : Periods := steps.foldl next ⟨[], []⟩

theorem ofSteps_concat (steps : List AggregatorStep) (a : AggregatorStep) :
    ofSteps (steps ++ [a]) = (ofSteps steps).next a := by
  simp [ofSteps]

end Periods

namespace Aggregator

def step (a : Aggregator) : AggregatorStep → Aggregator
  | .record x => a.record x.name x.value
  | .drain => a.drain.2

/--
What a step gives, if it is a drain.
-/
def rows (a : Aggregator) : AggregatorStep → List (List (String × Stat))
  | .record _ => []
  | .drain => [a.drain.1]

def run (a : Aggregator) (steps : List AggregatorStep) : Aggregator := steps.foldl step a

/--
What the drains of a series of steps give.
-/
def drained (a : Aggregator) (steps : List AggregatorStep) : List (List (String × Stat)) :=
  Run.history step rows a steps

/--
What an aggregator holds are the samples of the current period, and each drain has given a summary
of its period.
-/
structure Cut (p : Periods) (a : Aggregator) (given : List (List (String × Stat))) : Prop where
  held : a = ofSamples p.current
  given : List.Forall₂ Summarizes p.ended given

theorem Cut.step {p : Periods} {a : Aggregator} {given : List (List (String × Stat))}
    (h : Cut p a given) (s : AggregatorStep) : Cut (p.next s) (a.step s) (given ++ a.rows s) := by
  cases s with
  | record x =>
    refine ⟨?_, ?_⟩
    . rw [h.held]
      exact (ofSamples_concat p.current x).symm
    . rw [rows, List.append_nil]
      exact h.given
  | drain =>
    refine ⟨rfl, List.rel_append h.given (.cons ?_ .nil)⟩
    rw [h.held]
    exact summarizes_summaries p.current

theorem cut_run (steps : List AggregatorStep) :
    Cut (.ofSteps steps) (empty.run steps) (empty.drained steps) := by
  induction steps using List.reverseRecOn with
  | nil => exact ⟨rfl, .nil⟩
  | append_singleton steps s ih =>
    have hnext := ih.step s
    have hrun : empty.run (steps ++ [s]) = (empty.run steps).step s := by simp [run]
    have hdrained : empty.drained (steps ++ [s]) =
        empty.drained steps ++ (empty.run steps).rows s := by
      simp [drained, Run.history_append, Run.history, run]
    rwa [Periods.ofSteps_concat, hrun, hdrained]

theorem isEmpty_ofSamples_iff (xs : List Sample) : (ofSamples xs).isEmpty = true ↔ xs = [] := by
  constructor
  . intro hempty
    have hkeys : (ofSamples xs).byName.keys = [] := by
      rw [isEmpty, Dict.isEmpty, List.isEmpty_iff] at hempty
      rw [Dict.keys, hempty, List.map_nil]
    cases xs with
    | nil => rfl
    | cons x xs =>
      have hmem := (mem_keys_ofSamples (x :: xs) x.name).2 ⟨x, List.mem_cons_self .., rfl⟩
      rw [hkeys] at hmem
      cases hmem
  . rintro rfl
    rfl

theorem summaries_empty : empty.summaries = [] :=
  List.mergeSort_nil

/--
Each drain gives one row for each name that was recorded since the drain before it, in the order of
the bytes of the names, with what the values of this name came to in the order in which they were
recorded. An aggregator is empty as long as nothing was recorded since the last drain, so that
another drain gives nothing.
-/
theorem drains_summarize_periods (steps : List AggregatorStep) :
    let a := empty.run steps
    List.Forall₂ Summarizes (Periods.ofSteps steps).ended (empty.drained steps) ∧
    (a.isEmpty = true ↔ (Periods.ofSteps steps).current = []) ∧
    a.drain.2.isEmpty = true ∧ a.drain.2.drain.1 = [] := by
  intro a
  obtain ⟨hheld, hgiven⟩ := cut_run steps
  refine ⟨hgiven, ?_, rfl, summaries_empty⟩
  change (empty.run steps).isEmpty = true ↔ _
  rw [hheld]
  exact isEmpty_ofSamples_iff _

end Aggregator

end Upkeep.Metrics
