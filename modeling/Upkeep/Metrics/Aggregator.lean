import Upkeep.Dict
import Upkeep.Metrics.Stat

/-!
This module contains the aggregation of samples by name. Draining an aggregator gives one summary
for each name and starts afresh.
-/

namespace Upkeep.Metrics

/--
The samples since the last drain, by name.
-/
structure Aggregator where
  byName : Dict String Accumulator
  deriving Inhabited

namespace Aggregator

def empty : Aggregator := ⟨Dict.empty⟩

def record (a : Aggregator) (name : String) (x : Float) : Aggregator :=
  ⟨a.byName.insert name (((a.byName.get? name).getD .empty).add x)⟩

def isEmpty (a : Aggregator) : Bool := a.byName.isEmpty

/--
The summaries in the order of their names.
-/
def summaries (a : Aggregator) : List (String × Stat) :=
  (a.byName.entries.map fun e => (e.1, e.2.stat)).mergeSort fun x y => decide (x.1 ≤ y.1)

/--
The summaries, and the aggregator without samples.
-/
def drain (a : Aggregator) : List (String × Stat) × Aggregator := (a.summaries, empty)

def held (a : Aggregator) : Nat := a.byName.entries.foldl (fun n e => n + e.2.count) 0

@[simp]
theorem isEmpty_empty : empty.isEmpty = true := rfl

theorem get?_record (a : Aggregator) (name other : String) (x : Float) :
    (a.record name x).byName.get? other =
      if other = name then some (((a.byName.get? name).getD .empty).add x)
      else a.byName.get? other := by
  simp [record, Dict.get?_insert]

end Aggregator

end Upkeep.Metrics
