import Upkeep.Dict
import Upkeep.Text.Inspect
import Upkeep.Text.Quoted

/-!
This module contains recorders, which keep counters and gauges by name, and scopes, which put the
same start before all names of one part of a program.
-/

namespace Upkeep.Metrics

structure Recorder where
  counters : Dict String Float
  gauges : Dict String Float
  deriving Inhabited

namespace Recorder

def empty : Recorder := ⟨Dict.empty, Dict.empty⟩

/--
The value of a counter. One that was never raised is zero.
-/
def counter (r : Recorder) (name : String) : Float := (r.counters.get? name).getD 0

def raise (r : Recorder) (name : String) (x : Float) : Recorder :=
  { r with counters := r.counters.insert name (r.counter name + x) }

def gauge? (r : Recorder) (name : String) : Option Float := r.gauges.get? name

def setGauge (r : Recorder) (name : String) (x : Float) : Recorder :=
  { r with gauges := r.gauges.insert name x }

def counterNames (r : Recorder) : List String :=
  r.counters.keys.mergeSort fun a b => decide (a ≤ b)

end Recorder

/--
The names of one part of a program. All of them begin with the stem of the scope.
-/
structure Scope where
  stem : String
  deriving DecidableEq, Inhabited

namespace Scope

/--
The full name of a metric of the scope.
-/
def key (s : Scope) (name : String) : String := s.stem ++ name

def inspect (s : Scope) : String :=
  Text.inspectPart "ScopedMetrics" [("prefix", Text.quote s.stem)]

end Scope

end Upkeep.Metrics
