import Upkeep.Span

/-!
This module contains alarms: the times at which sleeping tasks wake up.
-/

namespace Upkeep.Task

structure Alarm where
  due : Span
  task : Nat
  deriving DecidableEq, Inhabited

/--
Alarms in the order in which they were set.
-/
abbrev Alarms := List Alarm

namespace Alarms

def nextDue? (alarms : Alarms) : Option Span := ((alarms.map (·.due.nanos)).min?).map Span.mk

/--
The tasks whose alarms have gone off by a time, in the order in which they were set, and the other
alarms.
-/
def ring (alarms : Alarms) (clock : Span) : List Nat × Alarms :=
  let (now, later) := alarms.partition (·.due ≤ clock)
  (now.map (·.task), later)

end Alarms

end Upkeep.Task
