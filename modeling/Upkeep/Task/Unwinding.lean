import Upkeep.Task.Code

/-!
This module contains the execution of code step by step. Scopes that have been entered stand on a
stack. A panic unwinds the stack down to the innermost scope whose guard is still up: a scope that
runs its callback has no guard any more. The execution leaves marks of what happens on the way.
-/

namespace Upkeep.Task

/--
A scope that was entered. Each has a number of its own.
-/
structure Scope where
  serial : Nat
  guard : Guard
  deriving DecidableEq, Inhabited

inductive Mark (α : Type u) where
  | entered (s : Scope)
  | noted (n : Note)
  | gave (a : α)
  | raised (p : Payload)
  | caught (s : Scope) (r : Report)
  | counted (s : Scope) (key : String)
  | logged (s : Scope) (r : Report)
  | told (s : Scope) (r : Report)
  | left (s : Scope) (v : Option α)

/--
What a mark means to those who look on from outside.
-/
def Mark.notes : Mark α → List Note
  | noted n => [n]
  | counted _ key => [.counted key]
  | logged _ r => [.emitted (Recovery.event r)]
  | _ => []

/--
What a scope does about a panic: it raises its counter, then it logs, then it tells its callback, as
far as that is asked for.
-/
def Scope.reaction (s : Scope) (p : Payload) : List (Mark α) :=
  .caught s (s.guard.report p) ::
    (s.guard.metric.toList.map (.counted s) ++
      ((if s.guard.log then [.logged s (s.guard.report p)] else []) ++
        (if s.guard.tells then [.told s (s.guard.report p)] else [])))

/--
A scope on the stack: its body is executed, or its callback.
-/
inductive Frame (α : Type u) where
  | body (s : Scope) (callback : Report → Code α) (next : Option α → Code α)
  | callback (s : Scope) (next : Option α → Code α)

namespace Frame

def scope : Frame α → Scope
  | body s _ _ => s
  | callback s _ => s

/--
The scope of a frame, if its guard is up.
-/
def guarding? : Frame α → Option Scope
  | body s _ _ => some s
  | callback _ _ => none

/--
A stack without the callbacks on its top.
-/
def unwind : List (Frame α) → List (Frame α)
  | callback _ _ :: rest => unwind rest
  | stack => stack

end Frame

/--
Code that is executed, innermost scope first, with the number of scopes entered so far, or the
result.
-/
inductive Execution (α : Type u) where
  | running (code : Code α) (stack : List (Frame α)) (entered : Nat)
  | done (result : Except Payload α)

namespace Execution

def start (c : Code α) : Execution α := .running c [] 0

def step : Execution α → Execution α × List (Mark α)
  | .done r => (.done r, [])
  | .running (.value a) [] _ => (.done (.ok a), [.gave a])
  | .running (.value a) (.body s _ next :: rest) n =>
    (.running (next (some a)) rest n, [.gave a, .left s (some a)])
  | .running (.value a) (.callback s next :: rest) n =>
    (.running (next none) rest n, [.gave a, .left s none])
  | .running (.note m next) stack n => (.running next stack n, [.noted m])
  | .running (.scope g callback body next) stack n =>
    (.running body (.body ⟨n, g⟩ callback next :: stack) (n + 1), [.entered ⟨n, g⟩])
  | .running (.panic p) stack n =>
    match Frame.unwind stack with
    | .body s callback next :: rest =>
      if s.guard.tells then
        (.running (callback (s.guard.report p)) (.callback s next :: rest) n,
          .raised p :: s.reaction p)
      else
        (.running (next none) rest n, .raised p :: (s.reaction p ++ [.left s none]))
    | _ => (.done (.error p), [.raised p])

def run : Nat → Execution α → Execution α × List (Mark α)
  | 0, x => (x, [])
  | k + 1, x =>
    let (y, h) := x.step
    let (z, more) := run k y
    (z, h ++ more)

end Execution

end Upkeep.Task
