import Upkeep.Proofs.Task.Scopes
import Upkeep.Task.Detached

/-!
This module contains the proof that panics are recovered from once and by the innermost scope, in
code that is run directly and in tasks that are detached. A task that waits between pieces of code
is guarded piece by piece. That comes to the same as one scope around all of its code.
-/

namespace Upkeep.Task

section

variable {α : Type u}

theorem Code.attempt_andThen (c : Code α) (f : α → Code α) :
    (c.andThen f).attempt = c.attempt.andThen fun a => (f a).attempt := by
  induction c with
  | value a => exact (Attempt.andThen_of_ok (x := .value a) rfl fun a => (f a).attempt).symm
  | panic p => rfl
  | note n next ih => rw [Code.andThen, attempt, attempt, ih, Attempt.andThen_assoc]
  | scope g callback body next _ _ ih =>
    rw [Code.andThen, attempt, attempt, Attempt.andThen_assoc]
    simp only [ih]

/--
How many turns a body takes.
-/
def Body.turns : Body α → Nat
  | last _ => 1
  | waits c next =>
    match c.attempt.result with
    | .ok a => (next a).turns + 1
    | .error _ => 1

theorem Body.turns_pos (b : Body α) : 0 < b.turns := by
  cases b with
  | last c => exact Nat.one_pos
  | waits c next =>
    rw [turns]
    split <;> exact Nat.succ_pos _

namespace Detached

variable {t : Detached α} {x : Attempt α} {b : Body α}

/--
The outcome of a task whose body does not have to wait.
-/
def outcome (t : Detached α) (b : Body α) : Attempt (Option α) := t.guarded b.code.attempt

/--
The code of a task, as it runs in a scope of its own.
-/
def code (t : Detached α) (finish : Option α → α) : Code α :=
  .scope t.guard t.callback t.body.code fun v => .value (finish v)

theorem attempt_code (t : Detached α) (finish : Option α → α) :
    (t.code finish).attempt = ⟨(t.outcome t.body).notes, (t.outcome t.body).result.map finish⟩ := by
  rw [code, Code.attempt, ← guarded, ← outcome]
  cases hr : (t.outcome t.body).result with
  | ok v =>
    rw [Attempt.andThen_of_ok hr, Code.attempt, Attempt.value, List.append_nil]
    rfl
  | error p => exact Attempt.andThen_of_error hr _

theorem guarded_of_ok {a : α} (hx : x.result = .ok a) (t : Detached α) :
    t.guarded x = ⟨x.notes, .ok (some a)⟩ :=
  Guard.guarded_of_ok hx _ _

theorem guarded_of_error {p : Payload} (hx : x.result = .error p) (t : Detached α) :
    t.guarded x =
      ⟨x.notes ++ (t.guard.warnings (t.guard.report p) ++
          if t.guard.tells then (t.callback (t.guard.report p)).attempt.notes else []),
        if t.guard.tells then (t.callback (t.guard.report p)).attempt.result.map fun _ => none
        else .ok none⟩ :=
  Guard.guarded_of_error hx

/--
A guard around two attempts only matters to the second one if the first one gives a value.
-/
theorem guarded_andThen {a : α} (hx : x.result = .ok a) (t : Detached α) (f : α → Attempt α) :
    t.guarded (x.andThen f) = ⟨x.notes ++ (t.guarded (f a)).notes, (t.guarded (f a)).result⟩ := by
  rw [Attempt.andThen_of_ok hx]
  cases hf : (f a).result with
  | ok c => rw [guarded_of_ok (a := c) rfl, guarded_of_ok hf]
  | error p => rw [guarded_of_error (p := p) rfl, guarded_of_error hf, List.append_assoc]

theorem guarded_ne_some {p : Payload} (hx : x.result = .error p) (a : α) :
    (t.guarded x).result ≠ .ok (some a) := by
  rw [guarded_of_error hx]
  cases ht : t.guard.tells with
  | false => simp
  | true => cases hr : (t.callback (t.guard.report p)).attempt.result <;> simp [Except.map]

/--
Whether the way that a task has come is a part of its whole way.
-/
def Keeps (t : Detached α) (taken : Nat) (notes : List Note) : Progress α → Prop
  | .awaiting b => taken + b.turns = t.body.turns ∧
      t.outcome t.body = ⟨notes ++ (t.outcome b).notes, (t.outcome b).result⟩
  | .joined r => t.body.turns ≤ taken ∧ t.outcome t.body = ⟨notes, r⟩

theorem keeps_poll {taken : Nat} {notes : List Note} (hb : t.Keeps taken notes (.awaiting b)) :
    t.Keeps (taken + 1) (notes ++ (t.poll b).2) (t.poll b).1 := by
  obtain ⟨hturns, houtcome⟩ := hb
  cases b with
  | last c => exact ⟨Nat.le_of_eq hturns.symm, houtcome⟩
  | waits c next =>
    rw [outcome, outcome, Body.code, Code.attempt_andThen] at houtcome
    rw [Body.turns] at hturns
    cases hc : c.attempt.result with
    | ok a =>
      rw [hc] at hturns
      rw [guarded_andThen hc] at houtcome
      rw [poll, guarded_of_ok hc]
      refine ⟨by dsimp only at hturns; omega, ?_⟩
      rw [outcome, houtcome, ← List.append_assoc]
      rfl
    | error p =>
      rw [hc] at hturns
      -- The pieces behind the panic are not run by the one scope either.
      have hsame : c.attempt.andThen (fun a => (next a).code.attempt) = c.attempt := by
        rw [Attempt.andThen_of_error hc, ← hc]
      rw [hsame] at houtcome
      have hpoll : t.poll (.waits c next) =
          (.joined (t.guarded c.attempt).result, (t.guarded c.attempt).notes) := by
        rw [poll]
        split
        . next a ha => exact absurd ha (guarded_ne_some hc a)
        . rfl
      rw [hpoll]
      exact ⟨Nat.le_of_eq hturns.symm, houtcome⟩

end Detached

namespace Crew

variable {ts : List (Detached α)} {w : Crew α}

/--
What holds of tasks that were given some turns: each is on its own way, and none is in the way of
another.
-/
def Kept (ts : List (Detached α)) (given : List Nat) (w : Crew α) : Prop :=
  w.tasks = ts ∧ ∀ i (t : Detached α), ts[i]? = some t →
    ∃ p, w.progress[i]? = some p ∧ t.Keeps (given.count i) (w.notesOf i) p

theorem kept_start (ts : List (Detached α)) : Kept ts [] (start ts) := by
  refine ⟨rfl, fun i t ht => ⟨.awaiting t.body, by simp [start, ht], ?_⟩⟩
  exact ⟨Nat.zero_add _, rfl⟩

theorem notesOf_append (w : Crew α) (progress : List (Progress α)) (j : Nat) (notes : List Note)
    (i : Nat) :
    notesOf { w with progress := progress, notes := w.notes ++ notes.map fun n => (j, n) } i =
      w.notesOf i ++ if i = j then notes else [] := by
  rw [notesOf, List.filter_append, List.map_append, ← notesOf]
  by_cases hij : i = j
  . subst hij
    simp [List.filter_map, Function.comp_def]
  . have hji : j ≠ i := fun h => hij h.symm
    simp [List.filter_map, Function.comp_def, hij, hji]

theorem kept_turn {given : List Nat} (hw : Kept ts given w) (j : Nat) :
    Kept ts (given ++ [j]) (w.turn j) := by
  obtain ⟨rfl, hall⟩ := hw
  cases ht : w.tasks[j]? with
  | none =>
    have hidle : w.turn j = w := by rw [turn, ht]
    refine ⟨by rw [hidle], fun i t hi => ?_⟩
    have hji : j ≠ i := fun h => by simp [← h, ht] at hi
    rw [hidle, List.count_append, List.count_singleton, if_neg (by simpa using hji)]
    exact hall i t hi
  | some t =>
    obtain ⟨p, hp, hkeeps⟩ := hall j t ht
    cases p with
    | joined r =>
      have hidle : w.turn j = w := by rw [turn, ht, hp]
      refine ⟨by rw [hidle], fun i t' hi => ?_⟩
      rw [hidle, List.count_append]
      obtain ⟨p', hp', hkeeps'⟩ := hall i t' hi
      by_cases hji : j = i
      . subst hji
        cases ht.symm.trans hi
        exact ⟨_, hp, Nat.le_trans hkeeps.1 (Nat.le_add_right ..), hkeeps.2⟩
      . rw [List.count_singleton, if_neg (by simpa using hji)]
        exact ⟨p', hp', hkeeps'⟩
    | awaiting b =>
      have hturn : w.turn j = { w with
          progress := w.progress.set j (t.poll b).1
          notes := w.notes ++ (t.poll b).2.map fun n => (j, n) } := by rw [turn, ht, hp]
      refine ⟨by rw [hturn], fun i t' hi => ?_⟩
      -- The task that has its turn moves on, the others find their progress and notes unchanged.
      rw [hturn, notesOf_append, List.count_append, List.count_singleton,
        getElem?_set_of_getElem? hp]
      by_cases hij : i = j
      . subst hij
        cases ht.symm.trans hi
        exact ⟨_, if_pos rfl, by simpa using Detached.keeps_poll hkeeps⟩
      . have hji : ¬j = i := fun h => hij h.symm
        obtain ⟨p', hp', hkeeps'⟩ := hall i t' hi
        exact ⟨p', by rw [if_neg hij, hp'], by simpa [hij, hji] using hkeeps'⟩

theorem kept_run {given : List Nat} (hw : Kept ts given w) (turns : List Nat) :
    Kept ts (given ++ turns) (w.run turns) := by
  induction turns generalizing given w with
  | nil => rwa [List.append_nil]
  | cons j turns ih =>
    rw [List.append_cons]
    exact ih (kept_turn hw j)

end Crew

/--
Panics are recovered from once, by the innermost scope. Any code is executed to its end. Each panic
on the way is taken care of by the innermost scope, which counts, logs and tells its callback in
that order and is left without a value, while the scopes around it go on. A scope that no panic
reaches is left with the value of its body and does nothing else. A panic of a callback is one of
the code around the scope. A detached task comes to the same as its code in a scope of its own,
whatever turns it and the other tasks are given; if the callback of the task panics, joining the
task shows that.
-/
theorem panics_recovered_by_innermost (c : Code α) (ts : List (Detached α)) (i : Fin ts.length)
    (finish : Option α → α) :
    (∃ h, Execution.Leads (.start c) h (.done c.attempt.result) ∧
      h.flatMap Mark.notes = c.attempt.notes ∧ Orderly h c.attempt.result) ∧
    (ts[i].code finish).attempt =
      ⟨(ts[i].outcome ts[i].body).notes, (ts[i].outcome ts[i].body).result.map finish⟩ ∧
    (∃ k, ∀ turns, ((Crew.start ts).run turns).joined? i =
      if k ≤ turns.count i.val then some (ts[i].outcome ts[i].body).result else none) ∧
    (∀ turns, ((Crew.start ts).run turns).notesOf i <+: (ts[i].outcome ts[i].body).notes ∧
      (((Crew.start ts).run turns).joined? i ≠ none →
        ((Crew.start ts).run turns).notesOf i = (ts[i].outcome ts[i].body).notes)) ∧
    (ts[i].outcome ts[i].body).result =
      match ts[i].body.code.attempt.result with
      | .ok a => .ok (some a)
      | .error p =>
        if ts[i].guard.tells then
          (ts[i].callback (ts[i].guard.report p)).attempt.result.map fun _ => none
        else .ok none := by
  have hrun : ∀ turns, ∃ p, ((Crew.start ts).run turns).progress[i.val]? = some p ∧
      ts[i].Keeps (turns.count i.val) (((Crew.start ts).run turns).notesOf i) p :=
    fun turns => (Crew.kept_run (Crew.kept_start ts) turns).2 i ts[i] (by simp)
  refine ⟨Execution.orderly c, ts[i].attempt_code finish, ⟨ts[i].body.turns, fun turns => ?_⟩,
    fun turns => ?_, ?_⟩
  . obtain ⟨p, hp, hkeeps⟩ := hrun turns
    cases p with
    | awaiting b =>
      have hlt : ¬ts[i].body.turns ≤ turns.count i.val := by
        have hpos := b.turns_pos
        have hturns := hkeeps.1
        omega
      rw [Crew.joined?, hp, if_neg hlt]
    | joined r => rw [Crew.joined?, hp, if_pos hkeeps.1, hkeeps.2]
  . obtain ⟨p, hp, hkeeps⟩ := hrun turns
    cases p with
    | awaiting b =>
      rw [Crew.joined?, hp, hkeeps.2]
      exact ⟨List.prefix_append .., fun h => absurd rfl h⟩
    | joined r =>
      rw [hkeeps.2]
      exact ⟨List.prefix_refl _, fun _ => rfl⟩
  . rw [Detached.outcome]
    cases hr : ts[i].body.code.attempt.result with
    | ok a => rw [Detached.guarded_of_ok hr]
    | error p => rw [Detached.guarded_of_error hr]

/-- The callback of the inner scope panics, and the outer scope counts that. -/
example :
    (Code.scope ⟨"outer", some "lost", false, false⟩ (fun _ => .value 0)
      (.scope ⟨"inner", none, true, true⟩ (fun _ => .panic (.text "again"))
        (.panic (.text "first")) fun _ => .value 1)
      fun v => .value (v.getD 2)).attempt =
      ⟨[.emitted (Recovery.event ⟨"inner", "first"⟩), .counted "lost"], .ok 2⟩ := rfl

end

end Upkeep.Task
