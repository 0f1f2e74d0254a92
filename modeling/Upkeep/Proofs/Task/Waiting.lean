import Mathlib.Data.List.Induction
import Upkeep.Proofs.Lists
import Upkeep.Proofs.Run
import Upkeep.Task.Group

/-!
This module contains the proof that the wait for a group of tasks does not depend on the order in
which they take their turns. What is reported is decided by how each of the tasks ends, and that is
decided by the task itself, unless it is cancelled.
-/

namespace Upkeep.Task

theorem Outcome.error?_eq_none_iff {o : Outcome} {i : Nat} : o.error? i = none ↔ o = .ok := by
  cases o <;> simp [error?]

/--
What is to be reported of a task that did not succeed: its own error, the text of its own panic, or
that it was cancelled.
-/
inductive Outcome.Reports (i : Nat) : Outcome → WaitError → Prop where
  | failed (cause : Failure) : Reports i (.failed cause) (.failed i cause)
  | panicked (p : Payload) : Reports i (.panicked p) (.panicked i p.message)
  | cancelled : Reports i .cancelled (.cancelled i)

theorem Outcome.error?_eq_some_iff {o : Outcome} {i : Nat} {e : WaitError} :
    o.error? i = some e ↔ o.Reports i e := by
  constructor
  . intro h
    cases o with
    | ok => cases h
    | failed cause => exact Option.some.inj h ▸ .failed cause
    | panicked p => exact Option.some.inj h ▸ .panicked p
    | cancelled => exact Option.some.inj h ▸ .cancelled
  . intro h
    cases h <;> rfl

theorem firstError?_eq_none_iff {os : List Outcome} {start : Nat} :
    firstError? start os = none ↔ ∀ i < os.length, os[i]? = some .ok := by
  induction os generalizing start with
  | nil => simp [firstError?]
  | cons o os ih =>
    rw [firstError?]
    cases he : o.error? start with
    | none =>
      rw [Outcome.error?_eq_none_iff] at he
      subst he
      dsimp only
      rw [ih]
      constructor
      . intro h i hi
        cases i with
        | zero => rfl
        | succ i => exact h i (Nat.lt_of_succ_lt_succ hi)
      . intro h i hi
        exact h (i + 1) (Nat.succ_lt_succ hi)
    | some e =>
      constructor
      . intro h
        cases h
      . intro h
        have hok : o = .ok := Option.some.inj (h 0 (Nat.succ_pos _))
        rw [hok] at he
        cases he

/--
The first error is that of an outcome which only successes come before.
-/
theorem firstError?_eq_some_iff {os : List Outcome} {start : Nat} {e : WaitError} :
    firstError? start os = some e ↔
      ∃ (i : Nat) (o : Outcome), os[i]? = some o ∧ o.error? (start + i) = some e ∧
        ∀ j < i, os[j]? = some .ok := by
  induction os generalizing start with
  | nil => simp [firstError?]
  | cons o os ih =>
    rw [firstError?]
    cases he : o.error? start with
    | none =>
      rw [Outcome.error?_eq_none_iff] at he
      subst he
      dsimp only
      rw [ih]
      constructor
      . rintro ⟨i, o, ho, herror, hbefore⟩
        refine ⟨i + 1, o, ho, ?_, ?_⟩
        . rw [← herror, Nat.add_assoc, Nat.add_comm 1 i]
        . intro j hj
          cases j with
          | zero => rfl
          | succ j => exact hbefore j (Nat.lt_of_succ_lt_succ hj)
      . rintro ⟨i, o, ho, herror, hbefore⟩
        cases i with
        | zero =>
          rw [← Option.some.inj ho] at herror
          cases herror
        | succ i =>
          refine ⟨i, o, ho, ?_, ?_⟩
          . rw [← herror, Nat.add_assoc, Nat.add_comm 1 i]
          . intro j hj
            exact hbefore (j + 1) (Nat.succ_lt_succ hj)
    | some e' =>
      constructor
      . intro h
        exact ⟨0, o, rfl, he.trans h, by simp⟩
      . rintro ⟨i, o', ho, herror, hbefore⟩
        cases i with
        | zero =>
          rw [← Option.some.inj ho] at herror
          exact he.symm.trans herror
        | succ i =>
          have hok : o = .ok := Option.some.inj (hbefore 0 (Nat.succ_pos _))
          rw [hok] at he
          cases he

namespace Wait

theorem getElem?_finish (w : Wait) (i : Nat) (o : Outcome) (j : Nat) :
    (w.finish i o).outcomes[j]? =
      if j = i ∧ w.outcomes[i]? = some none then some (some o) else w.outcomes[j]? := by
  unfold finish
  split
  . next hnone =>
    rw [getElem?_set_of_getElem? hnone]
    by_cases hj : j = i <;> simp [hj, hnone]
  . next hnot =>
    rw [if_neg]
    rintro ⟨-, hnone⟩
    exact hnot hnone

theorem length_finish (w : Wait) (i : Nat) (o : Outcome) :
    (w.finish i o).outcomes.length = w.outcomes.length := by
  unfold finish
  split
  . exact List.length_set
  . rfl

theorem isOver_iff {w : Wait} :
    w.isOver = true ↔ ∀ i < w.outcomes.length, ∃ o, w.outcomes[i]? = some (some o) := by
  rw [isOver, List.all_eq_true]
  constructor
  . intro h i hi
    obtain ⟨o, ho⟩ := Option.isSome_iff_exists.1 (h _ (List.getElem_mem hi))
    exact ⟨o, by rw [List.getElem?_eq_getElem hi, ho]⟩
  . intro h x hx
    obtain ⟨i, hi⟩ := List.mem_iff_getElem?.1 hx
    obtain ⟨o, ho⟩ := h i (List.getElem?_eq_some_iff.1 hi).1
    rw [ho] at hi
    rw [← Option.some.inj hi]
    rfl

theorem eq_map_filterMap_id {l : List (Option α)} (hl : ∀ x ∈ l, x.isSome = true) :
    l = (l.filterMap id).map some := by
  induction l with
  | nil => rfl
  | cons x l ih =>
    obtain ⟨o, rfl⟩ := Option.isSome_iff_exists.1 (hl x (List.mem_cons_self ..))
    exact congrArg (some o :: ·) (ih fun y hy => hl y (List.mem_cons_of_mem _ hy))

/--
What is to be reported when the tasks have ended in some way.
-/
def verdict (os : List Outcome) : Except WaitError Unit :=
  match firstError? 0 os with
  | some e => .error e
  | none => .ok ()

theorem report?_eq_some_iff {w : Wait} {r : Except WaitError Unit} :
    w.report? = some r ↔ ∃ os : List Outcome, w.outcomes = os.map some ∧ r = verdict os := by
  have hreport :
      w.report? = if w.isOver then some (verdict (w.outcomes.filterMap id)) else none := by
    unfold report? verdict
    cases firstError? 0 (w.outcomes.filterMap id) <;> rfl
  rw [hreport]
  constructor
  . intro h
    split at h
    . next hover =>
      exact ⟨_, eq_map_filterMap_id (List.all_eq_true.1 hover), (Option.some.inj h).symm⟩
    . cases h
  . rintro ⟨os, hos, rfl⟩
    have hover : w.isOver = true := by simp [isOver, hos]
    have hall : w.outcomes.filterMap id = os := by simp [hos]
    rw [if_pos hover, hall]

theorem verdict_eq_ok_iff {os : List Outcome} :
    verdict os = .ok () ↔ ∀ i < os.length, os[i]? = some .ok := by
  have hfirst : verdict os = .ok () ↔ firstError? 0 os = none := by
    rw [verdict]
    cases firstError? 0 os <;> simp
  rw [hfirst, firstError?_eq_none_iff]

theorem verdict_eq_error_iff {os : List Outcome} {e : WaitError} :
    verdict os = .error e ↔ ∃ (i : Nat) (o : Outcome), os[i]? = some o ∧ o.Reports i e ∧
      ∀ j < i, os[j]? = some .ok := by
  have hfirst : verdict os = .error e ↔ firstError? 0 os = some e := by
    rw [verdict]
    cases firstError? 0 os <;> simp
  simp only [hfirst, firstError?_eq_some_iff, Nat.zero_add, Outcome.error?_eq_some_iff]

end Wait

/--
The outcome of a task whose attempt gave a result.
-/
def Outcome.ofResult : Except Payload (Except Failure α) → Outcome
  | .ok (.ok _) => .ok
  | .ok (.error cause) => .failed cause
  | .error p => .panicked p

/--
How a task ends by itself, if it does.
-/
def Job.outcome? (j : Job (Except Failure α)) : Option Outcome :=
  j.attempt.map fun a => .ofResult a.result

/--
Whether an action may cancel a task.
-/
def GroupAction.cancels (i : Nat) : GroupAction → Bool
  | .cancel j => j = i
  | .shutdown => true
  | _ => false

namespace Slot

/--
What an action does to the task with a number.
-/
def follow (clock i : Nat) (s : Slot α) : GroupAction → Slot α
  | .turn j => if j = i then (s.turn clock).1 else s
  | .cancel j => if j = i ∧ s.isOver = false then { s with status := .cancelling } else s
  | .shutdown => if s.isOver then s else { s with status := .cancelled }
  | .pass _ | .look _ => s

/--
Whether the task was cancelled, even if it does not know yet.
-/
def isDoomed (s : Slot α) : Bool :=
  match s.status with
  | .cancelling | .cancelled => true
  | _ => false

/--
If the attempt of the task was made, the task has its result.
-/
def Kept (s : Slot α) : Prop :=
  ∀ time r, s.status = .ended time r → s.job.attempt.map (·.result) = some r

theorem finish_cases (clock : Nat) (s : Slot α) :
    (∃ a, s.job.attempt = some a ∧
        (s.finish clock).1 = { s with status := .ended clock a.result }) ∨
      (s.finish clock).1 = { s with status := .stuck } := by
  unfold finish
  split
  . next a ha => exact .inl ⟨a, ha, rfl⟩
  . exact .inr rfl

/--
What a turn can do to a task: nothing, or let it lie down, get stuck, end by itself or end because
it was cancelled.
-/
theorem turn_cases (clock : Nat) (s : Slot α) :
    (s.turn clock).1 = s ∨
    s.isOver = false ∧ s.isDoomed = false ∧
      ((∃ due, (s.turn clock).1 = { s with status := .asleep due }) ∨
        (s.turn clock).1 = { s with status := .stuck } ∨
        ∃ a, s.job.attempt = some a ∧
          (s.turn clock).1 = { s with status := .ended clock a.result }) ∨
    s.isOver = false ∧ s.isDoomed = true ∧ (s.turn clock).1 = { s with status := .cancelled } := by
  unfold turn
  split
  . next hs =>
    have hfresh : s.isOver = false ∧ s.isDoomed = false := by simp [isOver, isDoomed, hs]
    refine .inr (.inl ⟨hfresh.1, hfresh.2, ?_⟩)
    split
    . exact .inr (s.finish_cases clock).symm
    . exact .inl ⟨_, rfl⟩
  . next due hs =>
    have hasleep : s.isOver = false ∧ s.isDoomed = false := by simp [isOver, isDoomed, hs]
    split
    . exact .inr (.inl ⟨hasleep.1, hasleep.2, .inr (s.finish_cases clock).symm⟩)
    . exact .inl rfl
  . next hs => exact .inr (.inr (by simp [isOver, isDoomed, hs]))
  . exact .inl rfl

variable {clock i : Nat} {s : Slot α} {a : GroupAction}

theorem follow_of_isOver (hs : s.isOver = true) : s.follow clock i a = s := by
  cases a with
  | turn j =>
    rw [follow]
    split
    . obtain hsame | ⟨hnot, -⟩ | ⟨hnot, -⟩ := s.turn_cases clock
      . exact hsame
      . simp [hs] at hnot
      . simp [hs] at hnot
    . rfl
  | cancel j => simp [follow, hs]
  | shutdown => simp [follow, hs]
  | pass ms | look j => rfl

theorem job_follow : (s.follow clock i a).job = s.job := by
  cases a with
  | turn j =>
    rw [follow]
    split
    . obtain h | ⟨-, -, ⟨due, h⟩ | h | ⟨a, -, h⟩⟩ | ⟨-, -, h⟩ := s.turn_cases clock <;> rw [h]
    . rfl
  | cancel j | shutdown =>
    rw [follow]
    split <;> rfl
  | pass ms | look j => rfl

theorem Kept.follow (hs : s.Kept) : (s.follow clock i a).Kept := by
  cases a with
  | turn j =>
    rw [Slot.follow]
    split
    . obtain h | ⟨-, -, ⟨due, h⟩ | h | ⟨a, ha, h⟩⟩ | ⟨-, -, h⟩ := s.turn_cases clock
      . rwa [h]
      . simp [h, Kept]
      . simp [h, Kept]
      . intro time r hr
        rw [h, Status.ended.injEq] at hr
        rw [h, ha, ← hr.2]
        rfl
      . simp [h, Kept]
    . exact hs
  | cancel j | shutdown =>
    rw [Slot.follow]
    split
    . simp_all [Kept]
    . simp_all [Kept]
  | pass ms | look j => exact hs

theorem isDoomed_of_follow (hs : (s.follow clock i a).isDoomed = true) :
    s.isDoomed = true ∨ a.cancels i = true := by
  cases a with
  | turn j =>
    left
    rw [follow] at hs
    split at hs
    . obtain h | ⟨-, -, ⟨due, h⟩ | h | ⟨a, ha, h⟩⟩ | ⟨-, hdoomed, -⟩ := s.turn_cases clock
      . rwa [h] at hs
      . simp [h, isDoomed] at hs
      . simp [h, isDoomed] at hs
      . simp [h, isDoomed] at hs
      . exact hdoomed
    . exact hs
  | cancel j =>
    rw [follow] at hs
    split at hs
    . next hj => exact .inr (by simp [GroupAction.cancels, hj.1])
    . exact .inl hs
  | shutdown => exact .inr rfl
  | pass ms | look j => exact .inl hs

theorem outcome?_eq (s : Slot (Except Failure α)) :
    s.outcome? =
      match s.status with
      | .ended _ r => some (.ofResult r)
      | .cancelled => some .cancelled
      | _ => none := by
  unfold outcome?
  cases s.status with
  | ended time r =>
    cases r with
    | ok r => cases r <;> rfl
    | error p => rfl
  | _ => rfl

theorem isSome_outcome? (s : Slot (Except Failure α)) : s.outcome?.isSome = s.isOver := by
  rw [outcome?_eq, isOver]
  cases s.status <;> rfl

/--
A task that is over was cancelled, or has ended by itself.
-/
theorem Kept.outcome? {s : Slot (Except Failure α)} (hs : s.Kept) {o : Outcome}
    (ho : s.outcome? = some o) :
    o = .cancelled ∧ s.isDoomed = true ∨ s.job.outcome? = some o := by
  rw [outcome?_eq] at ho
  split at ho
  . next time r hended =>
    right
    obtain ⟨a, ha, hr⟩ := Option.map_eq_some_iff.1 (hs _ _ hended)
    rw [Job.outcome?, ha, Option.map_some, hr]
    exact ho
  . next hcancelled =>
    left
    exact ⟨(Option.some.inj ho).symm, by simp [isDoomed, hcancelled]⟩
  . cases ho

end Slot

namespace Pool

theorem lt_of_due? {clock due : Nat} {s : Slot α} (hs : s.due? clock = some due) : clock < due := by
  unfold Slot.due? at hs
  split at hs
  . split at hs
    . next hlt => exact Option.some.inj hs ▸ hlt
    . cases hs
  . cases hs

/--
To let tasks wake up is to let the time pass until the first of them does.
-/
theorem wake_eq_pass (p : Pool α) {due : Nat} (hdue : p.next? = some due) :
    p.wake none = p.pass (due - p.clock) := by
  obtain ⟨hmem, hleast⟩ := List.min?_eq_some_iff.1 hdue
  obtain ⟨s, -, hs⟩ := List.mem_filterMap.1 hmem
  have hclock : p.clock + (due - p.clock) = due :=
    Nat.add_sub_cancel' (Nat.le_of_lt (lt_of_due? hs))
  have hwoken : ∀ t ∈ p.slots.zipIdx,
      (decide (t.1.due? p.clock = some due)) = (t.1.due? p.clock).any (· ≤ due) := by
    intro t ht
    cases htdue : t.1.due? p.clock with
    | none => simp
    | some due' =>
      have hle : due ≤ due' :=
        hleast due' (List.mem_filterMap.2 ⟨t.1, List.fst_mem_of_mem_zipIdx ht, htdue⟩)
      simp only [Option.some.injEq, Option.any_some, decide_eq_decide]
      omega
  simp only [wake, hdue, Option.all_none, if_true, pass, hclock, List.filter_congr hwoken]

end Pool

namespace Group

variable {g : Group α} {jobs : List (Job (Except Failure α))} {as : List GroupAction}

/--
What an action does to a task depends on this task and the clock alone.
-/
theorem getElem?_slots_step (g : Group α) (a : GroupAction) (i : Nat) :
    (g.step a).pool.slots[i]? = (g.pool.slots[i]?).map (Slot.follow g.pool.clock i · a) := by
  cases a with
  | turn j =>
    simp only [step, Pool.turnOf, Pool.turn, Slot.follow]
    cases hj : g.pool.slots[j]? with
    | none =>
      by_cases hij : j = i
      . simp [← hij, hj]
      . simp [hij]
    | some s =>
      dsimp only
      rw [getElem?_set_of_getElem? hj]
      by_cases hij : i = j
      . simp [hij, hj]
      . simp [hij, Ne.symm hij]
  | cancel j =>
    simp only [step, Pool.cancel, Slot.follow]
    cases hj : g.pool.slots[j]? with
    | none =>
      by_cases hij : j = i
      . simp [← hij, hj]
      . simp [hij]
    | some s =>
      cases hs : s.isOver with
      | true =>
        by_cases hij : j = i
        . simp [← hij, hj, hs]
        . simp [hij, hs]
      | false =>
        simp only [hs, Bool.false_eq_true, if_false]
        rw [getElem?_set_of_getElem? hj]
        by_cases hij : i = j
        . simp [hij, hj, hs]
        . simp [hij, Ne.symm hij]
  | shutdown => simp [step, Pool.shutdown, Slot.follow]
  | pass ms => simp [step, Pool.pass, Slot.follow]
  | look j =>
    simp only [step, look, Slot.follow]
    split <;> simp

/--
A task that has ended stays as it is.
-/
theorem outcome?_step {i : Nat} {o : Outcome} (ho : g.outcome? i = some o) (a : GroupAction) :
    (g.step a).outcome? i = some o := by
  obtain ⟨s, hs, hso⟩ := Option.bind_eq_some_iff.1 ho
  have hover : s.isOver = true := by rw [← s.isSome_outcome?, hso, Option.isSome_some]
  rw [outcome?, getElem?_slots_step, hs, Option.map_some, Slot.follow_of_isOver hover]
  exact hso

/--
What an action shows to the one who waits.
-/
theorem getElem?_outcomes_step (g : Group α) (a : GroupAction) (i : Nat) :
    (g.step a).wait.outcomes[i]? =
      if a = .look i ∧ g.wait.outcomes[i]? = some none then
        some (g.outcome? i)
      else
        g.wait.outcomes[i]? := by
  cases a with
  | look j =>
    simp only [step, look, GroupAction.look.injEq]
    cases ho : g.outcome? j with
    | none =>
      by_cases hij : j = i
      . subst hij
        simp [ho]
      . simp [hij]
    | some o =>
      dsimp only
      rw [Wait.getElem?_finish]
      by_cases hij : j = i
      . subst hij
        simp [ho]
      . simp [hij, Ne.symm hij]
  | turn | pass | cancel | shutdown => simp [step]

/--
The tasks of a group are those that were started. A task that was not cancelled ends by itself. The
one who waits has seen only tasks that have ended, and how they ended.
-/
structure Agrees (jobs : List (Job (Except Failure α))) (as : List GroupAction) (g : Group α) :
    Prop where
  tasks : g.pool.slots.map (·.job) = jobs
  kept : ∀ (i : Nat) s, g.pool.slots[i]? = some s → s.Kept
  doomed : ∀ (i : Nat) s, g.pool.slots[i]? = some s → s.isDoomed = true →
    ∃ a ∈ as, a.cancels i = true
  length : g.wait.outcomes.length = jobs.length
  seen : ∀ (i : Nat) o, g.wait.outcomes[i]? = some (some o) → g.outcome? i = some o

namespace Agrees

theorem start (jobs : List (Job (Except Failure α))) : Agrees jobs [] (Group.start jobs) := by
  refine ⟨?_, ?_, ?_, ?_, ?_⟩
  . simp [Group.start, Pool.start, Function.comp_def]
  . intro i s hs
    obtain ⟨j, -, rfl⟩ := List.mem_map.1 (List.mem_of_getElem? hs)
    simp [Slot.Kept]
  . intro i s hs hdoomed
    obtain ⟨j, -, rfl⟩ := List.mem_map.1 (List.mem_of_getElem? hs)
    cases hdoomed
  . simp [Group.start, Wait.start]
  . intro i o ho
    have hnone := List.eq_of_mem_replicate (List.mem_of_getElem? ho)
    cases hnone

theorem step (hg : Agrees jobs as g) (a : GroupAction) : Agrees jobs (as ++ [a]) (g.step a) := by
  have hslot : ∀ (i : Nat) s, (g.step a).pool.slots[i]? = some s →
      ∃ t, g.pool.slots[i]? = some t ∧ s = t.follow g.pool.clock i a := by
    intro i s hs
    rw [getElem?_slots_step, Option.map_eq_some_iff] at hs
    obtain ⟨t, ht, rfl⟩ := hs
    exact ⟨t, ht, rfl⟩
  refine ⟨?_, ?_, ?_, ?_, ?_⟩
  . rw [← hg.tasks]
    apply List.ext_getElem?
    intro i
    rw [List.getElem?_map, getElem?_slots_step, List.getElem?_map, Option.map_map]
    apply Option.map_congr
    intro s _
    exact Slot.job_follow
  . intro i s hs
    obtain ⟨t, ht, rfl⟩ := hslot i s hs
    exact (hg.kept i t ht).follow
  . intro i s hs hdoomed
    obtain ⟨t, ht, rfl⟩ := hslot i s hs
    rcases Slot.isDoomed_of_follow hdoomed with hold | hnew
    . obtain ⟨a', ha', hcancels⟩ := hg.doomed i t ht hold
      exact ⟨a', List.mem_append_left _ ha', hcancels⟩
    . exact ⟨a, by simp, hnew⟩
  . rw [← hg.length]
    cases a with
    | look j =>
      simp only [Group.step, look]
      split
      . exact Wait.length_finish ..
      . rfl
    | turn | pass | cancel | shutdown => rfl
  . intro i o ho
    rw [getElem?_outcomes_step] at ho
    split at ho
    . exact outcome?_step (Option.some.inj ho) a
    . exact outcome?_step (hg.seen i o ho) a

theorem run (hg : Agrees jobs as g) (bs : List GroupAction) :
    Agrees jobs (as ++ bs) (g.run bs) := by
  induction bs using List.reverseRecOn with
  | nil => simpa [Group.run] using hg
  | append_singleton bs b ih =>
    rw [Group.run, List.foldl_append, ← List.append_assoc]
    exact ih.step b

theorem outcome? (hg : Agrees jobs as g) {i : Nat} {o : Outcome} (ho : g.outcome? i = some o) :
    o = .cancelled ∧ (∃ a ∈ as, a.cancels i = true) ∨
      ∃ job, jobs[i]? = some job ∧ job.outcome? = some o := by
  obtain ⟨s, hs, hso⟩ := Option.bind_eq_some_iff.1 ho
  rcases (hg.kept i s hs).outcome? hso with ⟨hcancelled, hdoomed⟩ | hown
  . exact .inl ⟨hcancelled, hg.doomed i s hs hdoomed⟩
  . refine .inr ⟨s.job, ?_, hown⟩
    rw [← hg.tasks, List.getElem?_map, hs]
    rfl

/--
Tasks that have the same attempts end alike, unless only one of them is cancelled.
-/
theorem outcome_eq (hg : Agrees jobs as g) {jobs' : List (Job (Except Failure α))}
    {bs : List GroupAction} {g' : Group α} (hg' : Agrees jobs' bs g')
    (hattempts : jobs'.map (·.attempt) = jobs.map (·.attempt)) {i : Nat}
    (hcancelled : g'.outcome? i = some .cancelled ↔ g.outcome? i = some .cancelled)
    {o o' : Outcome} (ho : g.outcome? i = some o) (ho' : g'.outcome? i = some o') : o' = o := by
  rcases hg.outcome? ho with ⟨rfl, -⟩ | ⟨job, hjob, hown⟩
  . rw [hcancelled.2 ho] at ho'
    exact (Option.some.inj ho').symm
  . rcases hg'.outcome? ho' with ⟨rfl, -⟩ | ⟨job', hjob', hown'⟩
    . rw [hcancelled.1 ho'] at ho
      exact Option.some.inj ho
    . have hattempt : job'.attempt = job.attempt := by
        have hget := congrArg (·[i]?) hattempts
        simpa [hjob, hjob'] using hget
      rw [Job.outcome?, hattempt] at hown'
      exact Option.some.inj (hown'.symm.trans hown)

/--
There is no report before all tasks have ended, and it depends on nothing but how they have ended.
-/
theorem report? (hg : Agrees jobs as g) {r : Except WaitError Unit} (hr : g.report? = some r) :
    ∃ os : List Outcome, os.length = jobs.length ∧ (∀ i < jobs.length, g.outcome? i = os[i]?) ∧
      r = Wait.verdict os := by
  obtain ⟨os, hos, rfl⟩ := Wait.report?_eq_some_iff.1 hr
  have hlength : os.length = jobs.length := by rw [← hg.length, hos, List.length_map]
  refine ⟨os, hlength, ?_, rfl⟩
  intro i hi
  have hget : os[i]? = some os[i] := List.getElem?_eq_getElem _
  rw [hget]
  apply hg.seen
  rw [hos, List.getElem?_map, hget]
  rfl

theorem report_ok_iff (hg : Agrees jobs as g) {r : Except WaitError Unit}
    (hr : g.report? = some r) : r = .ok () ↔ ∀ i < jobs.length, g.outcome? i = some .ok := by
  obtain ⟨os, hlength, hos, rfl⟩ := hg.report? hr
  rw [Wait.verdict_eq_ok_iff, hlength]
  constructor
  . intro h i hi
    rw [hos i hi, h i hi]
  . intro h i hi
    rw [← hos i hi, h i hi]

theorem report_error_iff (hg : Agrees jobs as g) {r : Except WaitError Unit}
    (hr : g.report? = some r) {e : WaitError} :
    r = .error e ↔ ∃ i < jobs.length, ∃ o, g.outcome? i = some o ∧ o.Reports i e ∧
      ∀ j < i, g.outcome? j = some .ok := by
  obtain ⟨os, hlength, hos, rfl⟩ := hg.report? hr
  rw [Wait.verdict_eq_error_iff]
  constructor
  . rintro ⟨i, o, ho, hreports, hbefore⟩
    have hi : i < jobs.length := hlength ▸ (List.getElem?_eq_some_iff.1 ho).1
    refine ⟨i, hi, o, (hos i hi).trans ho, hreports, ?_⟩
    intro j hj
    rw [hos j (Nat.lt_trans hj hi), hbefore j hj]
  . rintro ⟨i, hi, o, ho, hreports, hbefore⟩
    refine ⟨i, o, (hos i hi).symm.trans ho, hreports, ?_⟩
    intro j hj
    rw [← hos j (Nat.lt_trans hj hi), hbefore j hj]

/--
Groups of tasks that have the same attempts are reported alike, unless others are cancelled.
-/
theorem report_eq (hg : Agrees jobs as g) {jobs' : List (Job (Except Failure α))}
    {bs : List GroupAction} {g' : Group α} (hg' : Agrees jobs' bs g')
    (hattempts : jobs'.map (·.attempt) = jobs.map (·.attempt))
    (hcancelled : ∀ i, g'.outcome? i = some .cancelled ↔ g.outcome? i = some .cancelled)
    {r r' : Except WaitError Unit} (hr : g.report? = some r) (hr' : g'.report? = some r') :
    r' = r := by
  obtain ⟨os, hlength, hos, rfl⟩ := hg.report? hr
  obtain ⟨os', hlength', hos', rfl⟩ := hg'.report? hr'
  have hjobs : jobs'.length = jobs.length := by
    rw [← List.length_map (·.attempt), hattempts, List.length_map]
  have hsame : os' = os := by
    apply List.ext_getElem
    . rw [hlength, hlength', hjobs]
    . intro i hi' hi
      apply hg.outcome_eq hg' hattempts (hcancelled i)
      . rw [hos i (hlength ▸ hi), List.getElem?_eq_getElem hi]
      . rw [hos' i (hlength' ▸ hi'), List.getElem?_eq_getElem hi']
  rw [hsame]

end Agrees

theorem outcome?_run {i : Nat} {o : Outcome} (ho : g.outcome? i = some o) (bs : List GroupAction) :
    (g.run bs).outcome? i = some o := by
  induction bs generalizing g with
  | nil => exact ho
  | cons b bs ih => exact ih (outcome?_step ho b)

/--
What has been seen of a task is not forgotten.
-/
theorem seen_run {i : Nat} {o : Outcome} (ho : g.wait.outcomes[i]? = some (some o))
    (bs : List GroupAction) : (g.run bs).wait.outcomes[i]? = some (some o) := by
  induction bs generalizing g with
  | nil => exact ho
  | cons b bs ih =>
    apply ih
    rw [getElem?_outcomes_step, if_neg (by simp [ho]), ho]

/--
What has ended is seen as soon as it is looked at.
-/
theorem Agrees.seen_of_look (hg : Agrees jobs as g) {i : Nat} {o : Outcome}
    (ho : g.outcome? i = some o) (hi : i < jobs.length) {bs : List GroupAction}
    (hbs : .look i ∈ bs) : (g.run bs).wait.outcomes[i]? = some (some o) := by
  obtain ⟨pre, post, rfl⟩ := List.append_of_mem hbs
  have hlt : i < (g.run pre).wait.outcomes.length := by rwa [(hg.run pre).length]
  have hseen : ∃ o', ((g.run pre).step (.look i)).wait.outcomes[i]? = some (some o') := by
    rw [getElem?_outcomes_step, outcome?_run ho pre]
    split
    . exact ⟨o, rfl⟩
    . next hnot =>
      rw [List.getElem?_eq_getElem hlt] at hnot ⊢
      cases hx : (g.run pre).wait.outcomes[i] with
      | none => simp [hx] at hnot
      | some o' => exact ⟨o', rfl⟩
  obtain ⟨o', ho'⟩ := hseen
  have hlast : (g.run (pre ++ .look i :: post)).wait.outcomes[i]? = some (some o') := by
    rw [Group.run, List.foldl_append]
    exact seen_run ho' post
  have hsame := (hg.run _).seen i o' hlast
  rw [outcome?_run ho] at hsame
  rw [hlast, hsame]

/--
Once all tasks have ended, the wait is over as soon as each of them has been looked at.
-/
theorem Agrees.isSome_report?_run (hg : Agrees jobs as g)
    (hended : ∀ i < jobs.length, (g.outcome? i).isSome = true) {bs : List GroupAction}
    (hbs : ∀ i < jobs.length, .look i ∈ bs) : ((g.run bs).report?).isSome = true := by
  have hover : (g.run bs).wait.isOver = true := by
    rw [Wait.isOver_iff, (hg.run bs).length]
    intro i hi
    obtain ⟨o, ho⟩ := Option.isSome_iff_exists.1 (hended i hi)
    exact ⟨o, hg.seen_of_look ho hi (hbs i hi)⟩
  rw [Group.report?, Wait.report?, if_pos hover]
  split <;> rfl

theorem outcome?_ne_cancelled (has : ∀ a ∈ as, ∀ i, a.cancels i = false) (i : Nat) :
    ((start jobs).run as).outcome? i ≠ some .cancelled := by
  intro hcancelled
  rcases ((Agrees.start jobs).run as).outcome? hcancelled with ⟨-, a, ha, hcancels⟩ | ⟨job, -, hown⟩
  . rw [List.nil_append] at ha
    rw [has a ha i] at hcancels
    cases hcancels
  . obtain ⟨a, -, ha⟩ := Option.map_eq_some_iff.1 hown
    cases hr : a.result with
    | error p => simp [hr, Outcome.ofResult] at ha
    | ok r => cases r <;> simp [hr, Outcome.ofResult] at ha

/--
How a task ends is its own affair, unless it is cancelled. The wait is not over before all tasks
have ended, and it is over as soon as each of them has been looked at after that. It reports success
just if all tasks have succeeded, and otherwise what is to be reported of the first task, in the
order in which they were given, that has not. However long the tasks sleep, and in whatever order
they take their turns, the report is the same if the same tasks are cancelled.
-/
theorem report_of_every_schedule (jobs : List (Job (Except Failure α))) (as : List GroupAction) :
    let g := (start jobs).run as
    (∀ i o, g.outcome? i = some o →
      o = .cancelled ∧ (∃ a ∈ as, a.cancels i = true) ∨
        ∃ job, jobs[i]? = some job ∧ job.outcome? = some o) ∧
    (∀ r, g.report? = some r →
      (∀ i < jobs.length, (g.outcome? i).isSome = true) ∧
      (r = .ok () ↔ ∀ i < jobs.length, g.outcome? i = some .ok) ∧
      ∀ e, r = .error e ↔ ∃ i < jobs.length, ∃ o, g.outcome? i = some o ∧ o.Reports i e ∧
        ∀ j < i, g.outcome? j = some .ok) ∧
    (∀ bs, (∀ i < jobs.length, (g.outcome? i).isSome = true) →
      (∀ i < jobs.length, .look i ∈ bs) → ((g.run bs).report?).isSome = true) ∧
    ∀ (jobs' : List (Job (Except Failure α))) bs r r',
      jobs'.map (·.attempt) = jobs.map (·.attempt) →
      g.report? = some r → ((start jobs').run bs).report? = some r' →
      (∀ i, ((start jobs').run bs).outcome? i = some .cancelled ↔ g.outcome? i = some .cancelled) →
      r' = r := by
  intro g
  have hg : Agrees jobs as g := (Agrees.start jobs).run as
  refine ⟨fun i o ho => hg.outcome? ho, ?_, ?_, ?_⟩
  . intro r hr
    refine ⟨?_, hg.report_ok_iff hr, fun e => hg.report_error_iff hr⟩
    obtain ⟨os, hlength, hos, -⟩ := hg.report? hr
    intro i hi
    rw [hos i hi, List.getElem?_eq_getElem (hlength.symm ▸ hi), Option.isSome_some]
  . intro bs hended hbs
    exact hg.isSome_report?_run hended hbs
  . intro jobs' bs r r' hattempts hr hr' hcancelled
    exact hg.report_eq ((Agrees.start jobs').run bs) hattempts hcancelled hr hr'

/--
A success that takes long, an error that comes earlier, and a panic that comes at once.
-/
def lateAndEarly (long short : Nat) : List (Job (Except Failure Unit)) :=
  [⟨long, some (.value (.ok ()))⟩, ⟨short, some (.value (.error (.plain "boom")))⟩,
    ⟨0, some (.panic (.text "worker died"))⟩]

/--
The panic comes first in time and is seen first, but the error is reported, and nothing else is ever
reported of these tasks unless one of them is cancelled.
-/
theorem earlier_task_is_reported :
    let as := [.turn 2, .look 2, .turn 0, .turn 1, .pass 20, .turn 1, .look 1, .pass 10, .turn 0,
      .look 0]
    let g := (start (lateAndEarly 30 20)).run as
    let e := WaitError.failed 1 (.plain "boom")
    g.report? = some (.error e) ∧
      (∃ i < 3, ∃ o, g.outcome? i = some o ∧ o.Reports i e ∧ ∀ j < i, g.outcome? j = some .ok) ∧
      ∀ long short bs r, ((start (lateAndEarly long short)).run bs).report? = some r →
        (∀ a ∈ bs, ∀ i, a.cancels i = false) → r = .error e := by
  intro as g e
  obtain ⟨-, hreport, -, hsame⟩ := report_of_every_schedule (lateAndEarly 30 20) as
  have he : g.report? = some (.error e) := rfl
  refine ⟨he, ((hreport _ he).2.2 e).1 rfl, ?_⟩
  intro long short bs r hr hbs
  refine hsame (lateAndEarly long short) bs _ r rfl he hr ?_
  intro i
  have has : ∀ a ∈ as, ∀ i, a.cancels i = false := by
    simp [as, GroupAction.cancels]
  have hcancelled : ((start (lateAndEarly long short)).run bs).outcome? i ≠ some .cancelled :=
    outcome?_ne_cancelled hbs i
  have hnot : g.outcome? i ≠ some .cancelled := outcome?_ne_cancelled has i
  exact ⟨fun h => absurd h hcancelled, fun h => absurd h hnot⟩

/--
What a pool comes to if its tasks only take turns and time passes.
-/
def Leads (p q : Pool (Except Failure α)) : Prop :=
  ∃ as : List GroupAction, (∀ a ∈ as, ∀ i, a.cancels i = false) ∧
    ∀ w, (Group.mk p w).run as = ⟨q, w⟩

namespace Leads

variable {p q r : Pool (Except Failure α)}

theorem refl (p : Pool (Except Failure α)) : Leads p p := ⟨[], by simp, fun _ => rfl⟩

theorem trans (hpq : Leads p q) (hqr : Leads q r) : Leads p r := by
  obtain ⟨as, has, hq⟩ := hpq
  obtain ⟨bs, hbs, hr⟩ := hqr
  refine ⟨as ++ bs, List.forall_mem_append.2 ⟨has, hbs⟩, ?_⟩
  intro w
  rw [run, List.foldl_append]
  exact (congrArg (·.run bs) (hq w)).trans (hr w)

theorem turn (p : Pool (Except Failure α)) : Leads p p.turn := by
  cases hq : p.queue with
  | nil =>
    have hsame : p.turn = p := by simp only [Pool.turn, hq]
    rw [hsame]
    exact .refl p
  | cons i rest =>
    refine ⟨[.turn i], by simp [GroupAction.cancels], ?_⟩
    intro w
    have hfront : { p with queue := i :: p.queue.erase i } = p := by
      rw [hq, List.erase_cons_head, ← hq]
    simp only [run, List.foldl_cons, List.foldl_nil, step, Pool.turnOf, hfront]

theorem repeat_turn (n : Nat) (p : Pool (Except Failure α)) :
    Leads p (Nat.repeat Pool.turn n p) := by
  induction n with
  | zero => exact .refl p
  | succ n ih => exact ih.trans (.turn _)

theorem wake (p : Pool (Except Failure α)) : Leads p (p.wake none) := by
  unfold Pool.wake
  split
  . next due hdue =>
    have hpass : p.wake none = p.pass (due - p.clock) := p.wake_eq_pass hdue
    refine ⟨[.pass (due - p.clock)], by simp [GroupAction.cancels], ?_⟩
    intro w
    rw [run, List.foldl_cons, List.foldl_nil, step, ← hpass, Pool.wake, hdue]
  . exact .refl p

theorem awaitAll (p : Pool (Except Failure α)) : Leads p p.awaitAll := by
  have hrounds : ∀ n (q : Pool (Except Failure α)),
      Leads q (Nat.repeat (fun p => (p.wake none).settle) n q) := by
    intro n q
    induction n with
    | zero => exact .refl q
    | succ n ih => exact (ih.trans (.wake _)).trans (.repeat_turn _ _)
  exact (repeat_turn _ p).trans (hrounds _ _)

end Leads

theorem pool_look (g : Group α) (i : Nat) : (g.look i).pool = g.pool := by
  unfold look
  split <;> rfl

theorem pool_run_look (g : Group α) (is : List Nat) : (g.run (is.map .look)).pool = g.pool := by
  induction is generalizing g with
  | nil => rfl
  | cons i is ih => exact (ih (g.look i)).trans (pool_look g i)

/--
One who looks at all tasks sees how those have ended that have.
-/
theorem Agrees.wait_run_look (hg : Agrees jobs as g) :
    (g.run ((List.range jobs.length).map .look)).wait = g.pool.toWait := by
  have hall := hg.run ((List.range jobs.length).map .look)
  have hslots : g.pool.slots.length = jobs.length := by rw [← hg.tasks, List.length_map]
  suffices hsame : (g.run ((List.range jobs.length).map .look)).wait.outcomes =
      g.pool.slots.map Slot.outcome? from congrArg Wait.mk hsame
  apply List.ext_getElem
  . rw [hall.length, List.length_map, hslots]
  . intro i hi hi'
    have hlt : i < jobs.length := hall.length ▸ hi
    have houtcome : g.outcome? i = (g.pool.slots.map Slot.outcome?)[i] := by
      rw [List.getElem_map, Group.outcome?, List.getElem?_eq_getElem (hslots.symm ▸ hlt)]
      rfl
    rw [← houtcome]
    cases ho : g.outcome? i with
    | some o =>
      have hlook : .look i ∈ (List.range jobs.length).map GroupAction.look := by simpa using hlt
      have hseen := hg.seen_of_look ho hlt hlook
      exact (List.getElem?_eq_some_iff.1 hseen).2
    | none =>
      cases hx : (g.run ((List.range jobs.length).map .look)).wait.outcomes[i] with
      | none => rfl
      | some o =>
        have hseen := hall.seen i o (by rw [List.getElem?_eq_getElem hi, hx])
        rw [Group.outcome?, pool_run_look] at hseen
        cases ho.symm.trans hseen

/--
Awaiting all tasks is one of the schedules: those who can run take their turns one after the other,
and time passes when none can. What is reported then is what is reported in every other.
-/
theorem report?_awaitAll (jobs : List (Job (Except Failure α))) :
    ∃ as : List GroupAction, (∀ a ∈ as, ∀ i, a.cancels i = false) ∧
      ((start jobs).run as).report? = (Pool.start jobs).awaitAll.toWait.report? := by
  obtain ⟨as, has, hrun⟩ := Leads.awaitAll (Pool.start jobs)
  refine ⟨as ++ (List.range jobs.length).map .look, ?_, ?_⟩
  . rw [List.forall_mem_append]
    exact ⟨has, by simp [GroupAction.cancels]⟩
  . have hg : Agrees jobs as ((start jobs).run as) := (Agrees.start jobs).run as
    rw [run, List.foldl_append]
    change ((start jobs).run as |>.run _).wait.report? = _
    rw [hg.wait_run_look, start, hrun]

end Group

end Upkeep.Task
