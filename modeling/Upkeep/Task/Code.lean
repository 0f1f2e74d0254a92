import Upkeep.Task.Recovery

/-!
This module contains code that runs scopes inside each other. A scope guards its body: a panic that
gets out of the body is recovered from, and the code behind the scope finds the value missing. The
callback that is told of a panic is code again, and may have scopes of its own.
-/

namespace Upkeep.Task

/--
What a scope does about a panic: it may count it, log it and tell its callback.
-/
structure Guard where
  label : String
  metric : Option String
  log : Bool
  tells : Bool
  deriving DecidableEq, Inhabited

namespace Guard

/--
What a guard says of a panic.
-/
def report (g : Guard) (p : Payload) : Report := ⟨g.label, p.message⟩

/--
The recovery of a guard with a callback. A value of the callback is of no use.
-/
def recovery (g : Guard) (callback : Report → Attempt α) : Recovery :=
  { log := g.log
    metric := g.metric
    callback := if g.tells then some fun r => (callback r).andThen fun _ => .value () else none }

end Guard

/--
Code that gives a value or panics. The callback of a scope is of use only if the guard tells it
something. Behind a scope the code goes on with the value of the body, if there is one.
-/
inductive Code (α : Type u) where
  | value (a : α)
  | panic (p : Payload)
  | note (n : Note) (next : Code α)
  | scope (g : Guard) (callback : Report → Code α) (body : Code α) (next : Option α → Code α)

namespace Code

/--
What the code comes to. Each scope is a guarded attempt.
-/
def attempt : Code α → Attempt α
  | value a => .value a
  | panic p => .panic p
  | note n next => (Attempt.note n).andThen fun _ => next.attempt
  | scope g callback body next =>
    ((g.recovery fun r => (callback r).attempt).guarded g.label body.attempt).andThen fun v =>
      (next v).attempt

def andThen : Code α → (α → Code α) → Code α
  | value a, f => f a
  | panic p, _ => panic p
  | note n next, f => note n (next.andThen f)
  | scope g callback body next, f => scope g callback body fun v => (next v).andThen f

end Code

end Upkeep.Task
