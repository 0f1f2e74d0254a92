/-!
This module contains the summary of a stream of samples: its bounds, sum, mean and number.
-/

namespace Upkeep.Metrics

/--
The summary of a stream of samples. All parts of the summary of no samples are zero.
-/
structure Stat where
  min : Float
  max : Float
  sum : Float
  avg : Float
  count : Nat
  deriving Inhabited

/--
What is kept of the samples seen so far.
-/
structure Accumulator where
  min : Float
  max : Float
  sum : Float
  count : Nat
  deriving Inhabited

namespace Accumulator

def empty : Accumulator := ⟨0, 0, 0, 0⟩

/--
Takes in a sample. The first sample is both bounds; a later one becomes a bound if it compares as
beyond it, which a number that compares with nothing does not.
-/
def add (a : Accumulator) (x : Float) : Accumulator :=
  if a.count = 0 then
    ⟨x, x, x, 1⟩
  else
    { min := if x < a.min then x else a.min
      max := if a.max < x then x else a.max
      sum := a.sum + x
      count := a.count + 1 }

/--
What is kept of a list of samples, oldest first.
-/
def ofList (xs : List Float) : Accumulator := xs.foldl add empty

def stat (a : Accumulator) : Stat :=
  if a.count = 0 then
    ⟨0, 0, 0, 0, 0⟩
  else
    { min := a.min, max := a.max, sum := a.sum, avg := a.sum / Float.ofNat a.count
      count := a.count }

theorem count_add (a : Accumulator) (x : Float) : (a.add x).count = a.count + 1 := by
  unfold add
  split
  · next h => simp [h]
  · rfl

theorem count_foldl_add (a : Accumulator) (xs : List Float) :
    (xs.foldl add a).count = a.count + xs.length := by
  induction xs generalizing a with
  | nil => rfl
  | cons x xs ih => simp [ih, count_add]; omega

theorem count_ofList (xs : List Float) : (ofList xs).count = xs.length := by
  simp [ofList, count_foldl_add, empty]

theorem ofList_concat (xs : List Float) (x : Float) : ofList (xs ++ [x]) = (ofList xs).add x := by
  simp [ofList]

theorem count_stat (a : Accumulator) : a.stat.count = a.count := by
  unfold stat
  split
  · next h => simp [h]
  · rfl

end Accumulator

end Upkeep.Metrics
