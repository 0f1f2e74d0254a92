import Upkeep.Metrics.Sink
import Upkeep.Proofs.Run

/-!
This module contains what can happen to a report sink. Each step has one of a small number of
effects, which say what held before it, what the sink is after it, and which sample was submitted,
so that the proofs about sinks go by cases on effects.
-/

namespace Upkeep.Metrics.Sink

/--
The samples that an action submits. One that comes through a handle that is gone is none.
-/
def offered (s : Sink) : SinkAction → List Sample
  | .submit handle x => if s.handles[handle]? = some true then [x] else []
  | _ => []

/--
The samples that a series of actions submits, oldest first.
-/
def submitted (s : Sink) (as : List SinkAction) : List Sample :=
  Run.history (fun s a => (s.step a).1) offered s as

/--
What an action does to a sink, and which samples it submits.
-/
inductive Effect (s : Sink) : SinkAction → Sink → List Sample → Prop where
  | idle (a : SinkAction) : Effect s a s []
  | ignore (handle : Nat) (x : Sample) (hx : s.ignores x.name = true) :
    Effect s (.submit handle x) s [x]
  | queue (handle : Nat) (x : Sample) (hx : s.ignores x.name = false) (hopen : s.isOpen = true)
    (hroom : s.queue.length < s.capacity) :
    Effect s (.submit handle x) { s with queue := s.queue ++ [x] } [x]
  | lose (handle : Nat) (x : Sample) (hx : s.ignores x.name = false)
    (hfull : s.isOpen = true → s.capacity ≤ s.queue.length) :
    Effect s (.submit handle x) { s with dropped := s.dropped + 1 } [x]
  | clone : Effect s .clone { s with handles := s.handles ++ [true] } []
  | drop (handle : Nat) :
    Effect s (.drop handle) { s with handles := s.handles.set handle false } []
  | start (hw : s.worker = .fresh) (hclock : inClock (s.epoch + s.clock + s.firstDelay) = true) :
    Effect s .begin { s with worker := .running (s.clock + s.firstDelay) } []
  | crash (hw : s.worker = .fresh) (hclock : inClock (s.epoch + s.clock + s.firstDelay) = false) :
    Effect s .begin s.crash []
  | take (due : Span) (x : Sample) (rest : List Sample) (hw : s.worker = .running due)
    (hq : s.queue = x :: rest) :
    Effect s .receive { s with queue := rest, held := s.held.record x.name x.value } []
  | report (due later : Span) (hw : s.worker = .running due) (hdue : due ≤ s.clock)
    (hnext : s.nextDue? due = some later) :
    Effect s .flush { s.writeReport with worker := .running later } []
  | fail (due : Span) (hw : s.worker = .running due) (hdue : due ≤ s.clock)
    (hnext : s.nextDue? due = none) : Effect s .flush s.crash []
  | finish (due : Span) (hw : s.worker = .running due) (hq : s.queue = [])
    (hheld : s.isHeld = false) : Effect s .close { s.writeReport with worker := .finished } []
  | abort (hopen : s.isOpen = true) :
    Effect s .abort { s with worker := .aborted, queue := [], held := .empty } []
  | pass (time : Span) : Effect s (.pass time) { s with clock := s.clock + time } []

theorem submit_effect (s : Sink) (handle : Nat) (x : Sample) :
    s.Effect (.submit handle x) (s.submit handle x) (s.offered (.submit handle x)) := by
  simp only [submit, offered]
  split
  . unfold enqueue
    split
    . next hx => exact .ignore handle x hx
    . next hx =>
      have hnot : s.ignores x.name = false := by simpa using hx
      split
      . next hroom =>
        rw [Bool.and_eq_true, decide_eq_true_eq] at hroom
        exact .queue handle x hnot hroom.1 hroom.2
      . next hfull =>
        refine .lose handle x hnot ?_
        intro hopen
        simpa [hopen] using hfull
  . exact .idle _

theorem begin_effect (s : Sink) : s.Effect .begin s.begin [] := by
  unfold begin
  split
  . next hw =>
    split
    . next hclock => exact .start hw hclock
    . next hclock => exact .crash hw (by simpa using hclock)
  . exact .idle _

theorem receive_effect (s : Sink) : s.Effect .receive s.receive [] := by
  unfold receive
  split
  . next due x rest hw hq => exact .take due x rest hw hq
  . exact .idle _

theorem flush_effect (s : Sink) : s.Effect .flush s.flush [] := by
  unfold flush
  split
  . next due hw =>
    split
    . next hdue =>
      split
      . next later hnext => exact .report due later hw hdue hnext
      . next hnext => exact .fail due hw hdue hnext
    . exact .idle _
  . exact .idle _

theorem close_effect (s : Sink) : s.Effect .close s.close.1 [] := by
  unfold close
  split
  . next due hw =>
    split
    . next hlast =>
      rw [Bool.and_eq_true, List.isEmpty_iff, Bool.not_eq_true'] at hlast
      exact .finish due hw hlast.1 hlast.2
    . exact .idle _
  . exact .idle _

theorem abort_effect (s : Sink) : s.Effect .abort s.abort [] := by
  unfold abort
  split
  . next hopen => exact .abort hopen
  . exact .idle _

theorem step_effect (s : Sink) (a : SinkAction) : s.Effect a (s.step a).1 (s.offered a) := by
  cases a with
  | submit handle x => exact s.submit_effect handle x
  | clone => exact .clone
  | drop handle => exact .drop handle
  | begin => exact s.begin_effect
  | receive => exact s.receive_effect
  | flush => exact s.flush_effect
  | close => exact s.close_effect
  | abort => exact s.abort_effect
  | pass time => exact .pass time

theorem flush_of_due {s : Sink} {due later : Span} (hw : s.worker = .running due)
    (hdue : due ≤ s.clock) (hnext : s.nextDue? due = some later) :
    s.flush = { s.writeReport with worker := .running later } := by
  simp [flush, hw, hdue, hnext]

theorem flush_of_not_due {s : Sink} {due : Span} (hw : s.worker = .running due)
    (hdue : ¬ due ≤ s.clock) : s.flush = s := by
  simp [flush, hw, hdue]

theorem run_fst (s : Sink) (as : List SinkAction) :
    (s.run as).1 = as.foldl (fun s a => (s.step a).1) s := by
  suffices h : ∀ p : Sink × List Event,
      (as.foldl (fun p a => ((p.1.step a).1, p.2 ++ (p.1.step a).2)) p).1 =
        as.foldl (fun s a => (s.step a).1) p.1 from h (s, [])
  intro p
  induction as generalizing p with
  | nil => rfl
  | cons a as ih => exact ih _

theorem run_append_fst (s : Sink) (as bs : List SinkAction) :
    (s.run (as ++ bs)).1 = ((s.run as).1.run bs).1 := by
  rw [run_fst, run_fst, run_fst, List.foldl_append]

theorem run_cons_fst (s : Sink) (a : SinkAction) (as : List SinkAction) :
    (s.run (a :: as)).1 = ((s.step a).1.run as).1 := by
  rw [run_fst, run_fst, List.foldl_cons]

/--
What stays as it was spawned, while the clock goes on.
-/
structure Evolves (s t : Sink) : Prop where
  settings : t.settings = s.settings
  epoch : t.epoch = s.epoch
  untilMinute : t.untilMinute = s.untilMinute
  timer : t.timer = s.timer
  clock : s.clock ≤ t.clock

theorem Evolves.trans {s t u : Sink} (hst : s.Evolves t) (htu : t.Evolves u) : s.Evolves u :=
  ⟨htu.settings.trans hst.settings, htu.epoch.trans hst.epoch,
    htu.untilMinute.trans hst.untilMinute, htu.timer.trans hst.timer,
    Nat.le_trans hst.clock htu.clock⟩

theorem Effect.evolves {s next : Sink} {a : SinkAction} {offers : List Sample}
    (he : s.Effect a next offers) : s.Evolves next := by
  cases he with
  | pass time => exact ⟨rfl, rfl, rfl, rfl, Nat.le_add_right ..⟩
  | _ => exact ⟨rfl, rfl, rfl, rfl, Nat.le_refl _⟩

theorem evolves_run (s : Sink) (as : List SinkAction) : s.Evolves (s.run as).1 := by
  induction as generalizing s with
  | nil => exact ⟨rfl, rfl, rfl, rfl, Nat.le_refl _⟩
  | cons a as ih =>
    rw [run_cons_fst]
    exact (s.step_effect a).evolves.trans (ih _)

theorem run_invariant (P : Sink → List Sample → Prop)
    (hstep : ∀ s xs a next offers, s.Effect a next offers → P s xs → P next (xs ++ offers))
    (as : List SinkAction) (s : Sink) (hs : P s []) : P (s.run as).1 (s.submitted as) := by
  rw [run_fst]
  exact Run.invariant_of_step (fun (s : Sink) a => (s.step a).1) offered P
    (fun s xs a hs => hstep s xs a _ _ (s.step_effect a) hs) as s [] hs

end Upkeep.Metrics.Sink
