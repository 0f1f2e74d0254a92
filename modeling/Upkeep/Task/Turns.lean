/-!
This module contains the order in which tasks take their turns. A task that was started or woken by
another task, or by the clock, waits inside; one that was started from outside waits outside. Who
looks for the next task finds those inside first, but one look in 31 begins outside.
-/

namespace Upkeep.Task

/--
The tasks that wait for their turns, and how often the next one was looked for.
-/
structure Turns where
  inside : List Nat
  outside : List Nat
  looks : Nat
  deriving Inhabited

namespace Turns

def start : Turns := ⟨[], [], 0⟩

/--
One look in so many begins outside.
-/
def outsideEvery : Nat := 31

def add (t : Turns) (isInside : Bool) (task : Nat) : Turns :=
  if isInside then { t with inside := t.inside ++ [task] }
  else { t with outside := t.outside ++ [task] }

/--
Looks for the next task, and takes it out.
-/
def next (t : Turns) : Option Nat × Turns :=
  let looks := t.looks + 1
  match t.inside, t.outside with
  | [], [] => (none, { t with looks })
  | i :: inside, [] => (some i, ⟨inside, [], looks⟩)
  | [], o :: outside => (some o, ⟨[], outside, looks⟩)
  | i :: inside, o :: outside =>
    if looks % outsideEvery = 0 then (some o, ⟨i :: inside, outside, looks⟩)
    else (some i, ⟨inside, o :: outside, looks⟩)

end Turns

end Upkeep.Task
