import Upkeep.Proofs.Metrics.Period

/-!
This module contains the proof that the reports of a sink cut the samples into periods, whoever
submits samples, clones and drops handles and lets time pass. What one does with a sink is a series
of turns that fit the clock: all that the worker can do is done before time passes, and time passes
from one report to the next.
-/

namespace Upkeep.Metrics.Sink

/--
Something that one does with a sink.
-/
inductive Command where
  | submit (handle : Nat) (x : Sample)
  | clone
  | drop (handle : Nat)
  | settle
  | advance (time : Span)

def obey (s : Sink) : Command → Sink × List Event
  | .submit handle x => s.step (.submit handle x)
  | .clone => s.step .clone
  | .drop handle => s.step (.drop handle)
  | .settle => s.settle
  | .advance time => s.advance time

def obeyAll (s : Sink) (cs : List Command) : Sink := cs.foldl (fun s c => (s.obey c).1) s

/--
The turns until the reports that are due by a time are written.
-/
def untilLastDue (goal : Span) : Nat → Sink → List SinkAction
  | 0, _ => []
  | fuel + 1, s =>
    match s.due? with
    | some due =>
      if due ≤ goal then
        let as : List SinkAction := [.pass ⟨due.nanos - s.clock.nanos⟩, .flush]
        as ++ untilLastDue goal fuel (s.run as).1
      else
        []
    | none => []

/--
The turns until a time.
-/
def passing (s : Sink) (goal : Span) : List SinkAction :=
  let reports := untilLastDue goal (s.reportsUntil goal) s
  reports ++ [.pass ⟨goal.nanos - (s.run reports).1.clock.nanos⟩]

def turns (s : Sink) : Command → List SinkAction
  | .submit handle x => [.submit handle x]
  | .clone => [.clone]
  | .drop handle => [.drop handle]
  | .settle => s.settling
  | .advance time =>
    let goal := s.settle.1.clock + time
    s.settling ++ s.settle.1.passing goal ++ (s.settle.1.passTo goal).settling

def schedule (s : Sink) : List Command → List SinkAction
  | [] => []
  | c :: cs => s.turns c ++ schedule (s.obey c).1 cs

theorem Timed.append {s : Sink} {as bs : List SinkAction} (has : s.Timed as)
    (hbs : (s.run as).1.Timed bs) : s.Timed (as ++ bs) := by
  rw [run_fst] at hbs
  exact Run.Obeys.append has hbs

theorem run_settling (s : Sink) : (s.run s.settling).1 = s.settle.1 := rfl

theorem run_untilLastDue (goal : Span) (fuel : Nat) (s : Sink) :
    (s.run (untilLastDue goal fuel s)).1 = toLastDue goal fuel s := by
  induction fuel generalizing s with
  | zero => rfl
  | succ fuel ih =>
    simp only [untilLastDue, toLastDue]
    cases s.due? with
    | none => rfl
    | some due =>
      by_cases hdue : due ≤ goal
      . simp only [if_pos hdue]
        rw [run_append_fst, ih]
      . simp only [if_neg hdue]
        rfl

theorem run_passing (s : Sink) (goal : Span) : (s.run (s.passing goal)).1 = s.passTo goal := by
  rw [passing, passTo, run_append_fst, run_untilLastDue]
  rfl

-- opens neither side of the equation: the sinks here are too large to compute with
theorem fst_eq_of_eq {p : α × β} {a : α} {b : β} (h : p = (a, b)) : p.1 = a := by
  rw [h]

theorem advance_fst (s : Sink) (time : Span) :
    (s.advance time).1 = (s.settle.1.passTo (s.settle.1.clock + time)).settle.1 :=
  fst_eq_of_eq (by rw [advance])

theorem run_turns (s : Sink) (c : Command) : (s.run (s.turns c)).1 = (s.obey c).1 := by
  cases c with
  | advance time =>
    have hturns : s.turns (.advance time) = s.settling ++
        s.settle.1.passing (s.settle.1.clock + time) ++
        (s.settle.1.passTo (s.settle.1.clock + time)).settling := by
      rw [turns]
    rw [hturns, obey, advance_fst, run_append_fst, run_append_fst, run_settling, run_passing,
      run_settling]
  | _ => rfl

theorem run_schedule (s : Sink) (cs : List Command) :
    (s.run (s.schedule cs)).1 = s.obeyAll cs := by
  induction cs generalizing s with
  | nil => rfl
  | cons c cs ih =>
    rw [schedule, run_append_fst, run_turns, ih]
    rfl

theorem timed_settling (s : Sink) : s.Timed s.settling := by
  apply Run.obeys_of_forall_mem
  intro a ha t
  simp only [settling, List.cons_append, List.mem_cons, List.mem_append, List.mem_map,
    List.not_mem_nil, or_false] at ha
  rcases ha with rfl | rfl | ⟨-, -, rfl⟩ | rfl <;> trivial

theorem worker_of_due? {s : Sink} {due : Span} (h : s.due? = some due) :
    s.worker = .running due := by
  unfold due? at h
  split at h
  . next hw => rw [hw, Option.some.inj h]
  . cases h

theorem settle_fst (s : Sink) :
    s.settle.1 = (s.begin.flush.run (s.queue.map fun _ => .receive)).1.close.1 := by
  rw [← run_settling, settling, List.cons_append, List.cons_append, run_cons_fst, run_cons_fst,
    run_append_fst]
  rfl

/--
A worker that takes out all that is queued holds it then.
-/
theorem run_receive_eq {s : Sink} {due : Span} (hw : s.worker = .running due) :
    (s.run (s.queue.map fun _ => .receive)).1 =
      { s with
        queue := []
        held := s.queue.foldl (fun held x => held.record x.name x.value) s.held } := by
  generalize hq : s.queue = q
  induction q generalizing s with
  | nil =>
    have hsame : { s with queue := [] } = s := by rw [← hq]
    exact hsame.symm
  | cons x rest ih =>
    have hreceive : s.receive = { s with queue := rest, held := s.held.record x.name x.value } := by
      simp [receive, hw, hq]
    rw [List.map_cons, run_cons_fst, step, hreceive]
    exact ih hw rfl

/--
A worker takes out all that is queued.
-/
theorem run_receive {s : Sink} {due : Span} (hw : s.worker = .running due) :
    let t := (s.run (s.queue.map fun _ => .receive)).1
    t.worker = .running due ∧ t.queue = [] ∧ t.clock = s.clock ∧ t.handles = s.handles := by
  rw [run_receive_eq hw]
  exact ⟨hw, rfl, rfl, rfl⟩

/--
A worker with nothing in its queue goes on to wait while somebody can submit samples, and ends
otherwise.
-/
theorem close_of_running {s : Sink} {due : Span} (hw : s.worker = .running due)
    (hq : s.queue = []) :
    s.close.1 = if s.isHeld then s else { s.writeReport with worker := .finished } := by
  simp only [close, hw, hq]
  cases s.isHeld <;> rfl

theorem goal_le_passTo (s : Sink) (goal : Span) : goal ≤ (s.passTo goal).clock := by
  simp only [passTo, step, Span.le_def, Span.nanos_add]
  omega

/--
What is done with a sink comes down to a run of it.
-/
theorem evolves_obeyAll (s : Sink) (cs : List Command) : s.Evolves (s.obeyAll cs) := by
  rw [← run_schedule]
  exact s.evolves_run _

namespace OnTime

variable {settings : Settings} {s : Sink} {h : List Entry}

/--
Once the worker has begun and has written the report that is due, the next one is due later.
-/
theorem begin_flush (hs : OnTime settings s h) (halign : settings.alignToMinute = false)
    (hroom : s.hasRoom = true) (hopen : s.isOpen = true) :
    ∃ due, s.begin.flush.worker = .running due ∧ ¬ due ≤ s.clock ∧
      s.begin.flush.queue = s.queue ∧ s.begin.flush.clock = s.clock ∧
      s.begin.flush.handles = s.handles := by
  have hpos := settings.period_pos
  cases hw : s.worker with
  | fresh =>
    have hdelay : s.firstDelay = s.settings.period := by simp [firstDelay, hs.same, halign]
    have hin : inClock (s.epoch + s.clock + s.firstDelay) = true := by rw [hdelay]; exact hroom
    have hnot : ¬ s.clock + s.firstDelay ≤ s.clock := by
      rw [Span.le_def, Span.nanos_add, hdelay, hs.same]
      omega
    have hbegin : s.begin = { s with worker := .running (s.clock + s.firstDelay) } := by
      simp [begin, hw, hin]
    rw [flush_of_not_due (by rw [hbegin]) (by rwa [hbegin]), hbegin]
    exact ⟨_, rfl, hnot, rfl, rfl, rfl⟩
  | running due =>
    have hbegin : s.begin = s := by simp [begin, hw]
    rw [hbegin]
    by_cases hdue : due ≤ s.clock
    . have hclock := hs.clock_eq hw hdue
      rw [flush_of_due hw hdue (hs.nextDue?_eq hroom hclock)]
      refine ⟨_, rfl, ?_, rfl, rfl, rfl⟩
      rw [hclock, Span.le_def, Span.nanos_add]
      omega
    . rw [flush_of_not_due hw hdue]
      exact ⟨due, hw, hdue, rfl, rfl, rfl⟩
  | finished | crashed | aborted => simp [isOpen, hw] at hopen

/--
A worker that has done all it can do waits for something or has ended, at the same time as before.
It has ended if nobody can submit samples any more.
-/
theorem settle (hs : OnTime settings s h) (halign : settings.alignToMinute = false)
    (hroom : s.hasRoom = true) :
    s.settle.1.isIdle = true ∧ s.settle.1.clock = s.clock ∧
      (s.isHeld = false → s.settle.1.worker = .finished) := by
  rw [settle_fst]
  cases hopen : s.isOpen with
  | true =>
    obtain ⟨due, hw, hnot, hqueue, hclock, hhandles⟩ := hs.begin_flush halign hroom hopen
    obtain ⟨hw', hempty, hclock', hhandles'⟩ := run_receive hw
    rw [hqueue] at hw' hempty hclock' hhandles'
    have hclose := close_of_running hw' hempty
    generalize (s.begin.flush.run (s.queue.map fun _ => .receive)).1 = t at *
    have hheld : t.isHeld = s.isHeld := by rw [isHeld, isHeld, hhandles', hhandles]
    rw [hheld] at hclose
    cases hleft : s.isHeld with
    | true =>
      rw [hleft, if_pos rfl] at hclose
      rw [hclose]
      refine ⟨?_, hclock'.trans hclock, by simp⟩
      simp [isIdle, hw', hempty, hheld, hleft, hclock', hclock, hnot]
    | false =>
      rw [hleft, if_neg Bool.false_ne_true] at hclose
      rw [hclose]
      exact ⟨rfl, hclock'.trans hclock, fun _ => rfl⟩
  | false =>
    have hw := (hs.ended hopen).1
    have hbegin : s.begin = s := by simp [begin, hw]
    have hflush : s.flush = s := by simp [flush, hw]
    have hreceive : s.receive = s := by simp [receive, hw]
    have hrun : ∀ q : List Sample, (s.run (q.map fun _ => .receive)).1 = s := by
      intro q
      induction q with
      | nil => rfl
      | cons x q ih => rw [List.map_cons, run_cons_fst, step, hreceive, ih]
    have hclose : s.close.1 = s := by simp [close, hw]
    rw [hbegin, hflush, hrun, hclose]
    exact ⟨by simp [isIdle, hw], rfl, fun _ => hw⟩

/--
A worker that waits writes its next report when the time of that has come, and waits again.
-/
theorem pass_flush (hs : OnTime settings s h) (hidle : s.isIdle = true) {due : Span}
    (hw : s.worker = .running due) (hroom : inClock (s.epoch + due + settings.period) = true) :
    let as : List SinkAction := [.pass ⟨due.nanos - s.clock.nanos⟩, .flush]
    let t := (s.run as).1
    s.Timed as ∧ t.isIdle = true ∧ t.clock = due ∧ t.worker = .running (due + settings.period) := by
  intro as t
  have hpos := settings.period_pos
  have hclock : s.clock + ⟨due.nanos - s.clock.nanos⟩ = due := by
    obtain ⟨n⟩ := due
    exact congrArg Span.mk (Nat.add_sub_cancel' (hs.running _ hw).2.2)
  have hdue : ∀ d ∈ s.due?, s.clock + ⟨due.nanos - s.clock.nanos⟩ ≤ d := by
    intro d hd
    have heq : due = d := by simpa [due?, hw] using hd
    rw [hclock, heq]
    exact Nat.le_refl _
  have hpassed := hs.pass ⟨due.nanos - s.clock.nanos⟩ hidle hdue
  rw [hclock] at hpassed
  have hroom' : hasRoom { s with clock := due } = true := by
    rw [hasRoom, hs.same]
    exact hroom
  have hnext : nextDue? { s with clock := due } due = some (due + settings.period) :=
    hpassed.nextDue?_eq hroom' rfl
  have hflush : t = { writeReport { s with clock := due } with
      worker := .running (due + settings.period) } := by
    have hpass : t = flush { s with clock := s.clock + ⟨due.nanos - s.clock.nanos⟩ } := rfl
    rw [hpass, hclock, flush_of_due (s := { s with clock := due }) hw (Nat.le_refl _) hnext]
  simp only [isIdle, hw, Bool.and_eq_true, List.isEmpty_iff] at hidle
  have hlater : ¬ due + settings.period ≤ due := by
    rw [Span.le_def, Span.nanos_add]
    omega
  refine ⟨⟨⟨by simp [isIdle, hw, hidle], hdue⟩, trivial, trivial⟩, ?_, ?_, ?_⟩
  . rw [hflush]
    simp only [isIdle, Bool.and_eq_true, List.isEmpty_iff, Bool.not_eq_true',
      decide_eq_false_iff_not]
    exact ⟨hidle.1, hlater⟩
  . rw [hflush]
    rfl
  . rw [hflush]

/--
The worker writes all reports that are due by a time, if there is fuel for them.
-/
theorem untilLastDue (hs : OnTime settings s h) (halign : settings.alignToMinute = false)
    (hidle : s.isIdle = true) {goal : Span} (hgoal : s.clock ≤ goal)
    (hroom : inClock (s.epoch + goal + settings.period) = true) {fuel : Nat}
    (hfuel : ∀ due ∈ s.due?, goal.nanos < due.nanos + fuel * settings.period.nanos) :
    let t := (s.run (Sink.untilLastDue goal fuel s)).1
    s.Timed (Sink.untilLastDue goal fuel s) ∧ t.isIdle = true ∧ t.clock ≤ goal ∧
      ∀ due ∈ t.due?, goal ≤ due := by
  induction fuel generalizing s h with
  | zero =>
    refine ⟨trivial, hidle, hgoal, ?_⟩
    intro due hdue
    have hlt := hfuel due hdue
    rw [Nat.zero_mul, Nat.add_zero] at hlt
    exact Nat.le_of_lt hlt
  | succ fuel ih =>
    rw [Sink.untilLastDue]
    cases hdue : s.due? with
    | none =>
      refine ⟨trivial, hidle, hgoal, ?_⟩
      intro due hmem
      rw [show (s.run []).1.due? = none from hdue] at hmem
      cases hmem
    | some due =>
      dsimp only
      by_cases hle : due ≤ goal
      . have hw := worker_of_due? hdue
        have hroom' : inClock (s.epoch + due + settings.period) = true :=
          inClock_of_earlier hle hroom
        obtain ⟨htimed, hidle', hclock, hnext⟩ := hs.pass_flush hidle hw hroom'
        rw [if_pos hle]
        have hevolves := s.evolves_run [.pass ⟨due.nanos - s.clock.nanos⟩, .flush]
        have hnow := hs.run halign htimed (by rwa [hevolves.hasRoom_eq, hclock, hs.same])
        have hrest := ih hnow hidle' (by rwa [hclock]) (hevolves.epoch ▸ hroom) ?_
        . rw [run_append_fst]
          exact ⟨htimed.append hrest.1, hrest.2⟩
        . intro d hd
          have heq : due + settings.period = d := by simpa [due?, hnext] using hd
          have hlt := hfuel due hdue
          rw [Nat.succ_mul] at hlt
          rw [← heq, Span.nanos_add]
          omega
      . rw [if_neg hle]
        refine ⟨trivial, hidle, hgoal, ?_⟩
        intro d hd
        have heq : due = d := by simpa [show (s.run []).1.due? = some due from hdue] using hd
        rw [Span.le_def] at hle ⊢
        rw [← heq]
        omega

theorem passing (hs : OnTime settings s h) (halign : settings.alignToMinute = false)
    (hidle : s.isIdle = true) {goal : Span} (hgoal : s.clock ≤ goal)
    (hroom : inClock (s.epoch + goal + settings.period) = true) :
    s.Timed (s.passing goal) ∧ (s.passTo goal).clock = goal := by
  have hpos := settings.period_pos
  have hfuel : ∀ due ∈ s.due?,
      goal.nanos < due.nanos + s.reportsUntil goal * settings.period.nanos := by
    intro due hdue
    have hw : s.worker = .running due := worker_of_due? hdue
    obtain ⟨-, -, hhigh⟩ := hs.running due hw
    have hdiv := Nat.lt_mul_div_succ (goal.nanos - s.clock.nanos) hpos
    rw [Nat.mul_comm] at hdiv
    rw [Span.le_def] at hhigh hgoal
    rw [reportsUntil, hs.same, Nat.succ_mul]
    omega
  obtain ⟨htimed, hidle', hclock, hlater⟩ := hs.untilLastDue halign hidle hgoal hroom hfuel
  generalize hlast : (s.run (Sink.untilLastDue goal (s.reportsUntil goal) s)).1 = t at *
  have harrive : t.clock + ⟨goal.nanos - t.clock.nanos⟩ = goal := by
    obtain ⟨n⟩ := goal
    exact congrArg Span.mk (Nat.add_sub_cancel' hclock)
  constructor
  . rw [Sink.passing]
    apply htimed.append
    rw [hlast]
    refine ⟨⟨hidle', ?_⟩, trivial⟩
    intro due hdue
    rw [harrive]
    exact hlater due hdue
  . rw [← run_passing, Sink.passing, run_append_fst, hlast]
    exact harrive

/--
What settles and then lets a time pass is at the end of that time, and is still in time.
-/
theorem pass_settled (hs : OnTime settings s h) (halign : settings.alignToMinute = false)
    {time : Span} (hroom : inClock (s.epoch + (s.clock + time) + settings.period) = true) :
    let goal := s.settle.1.clock + time
    let t := s.settle.1.passTo goal
    s.Timed (s.settling ++ s.settle.1.passing goal) ∧ t.clock = s.clock + time ∧
      t.hasRoom = true ∧ ∃ h', OnTime settings t h' := by
  intro goal t
  have hlater : s.clock ≤ s.clock + time := Nat.le_add_right ..
  have hroom' : s.hasRoom = true := by
    rw [hasRoom, hs.same]
    exact inClock_of_earlier hlater hroom
  obtain ⟨hidle, hclock, -⟩ := hs.settle halign hroom'
  have hevolves : s.Evolves s.settle.1 := s.evolves_run s.settling
  have hbefore : OnTime settings s.settle.1 _ := hs.run halign s.timed_settling (by
    rwa [run_settling, hevolves.hasRoom_eq, hclock])
  have hgoal : goal = s.clock + time := by rw [← hclock]
  have hend : inClock (s.settle.1.epoch + goal + settings.period) = true := by
    rw [hgoal, hevolves.epoch]
    exact hroom
  have hahead : s.settle.1.clock ≤ goal := Nat.le_add_right ..
  obtain ⟨htimed, harrived⟩ := hbefore.passing halign hidle hahead hend
  have hlast : t.hasRoom = true := by
    have hevolves' := s.settle.1.evolves_run (s.settle.1.passing goal)
    rw [run_passing] at hevolves'
    rwa [hevolves'.hasRoom_eq, harrived, hbefore.same]
  have hafter := hbefore.run halign htimed (by rwa [run_passing])
  rw [run_passing] at hafter
  exact ⟨s.timed_settling.append htimed, harrived.trans hgoal, hlast, _, hafter⟩

theorem turns (hs : OnTime settings s h) (halign : settings.alignToMinute = false) (c : Command)
    (hroom : (s.obey c).1.hasRoom = true) : s.Timed (s.turns c) := by
  cases c with
  | submit | clone | drop => exact ⟨trivial, trivial⟩
  | settle => exact s.timed_settling
  | advance time =>
    -- the clock has come to the end of the time at least
    have hlate : s.clock + time ≤ (s.advance time).1.clock := by
      have hstart := (s.evolves_run s.settling).clock
      have hgoal := s.settle.1.goal_le_passTo (s.settle.1.clock + time)
      have hend := ((s.settle.1.passTo (s.settle.1.clock + time)).evolves_run
        (s.settle.1.passTo (s.settle.1.clock + time)).settling).clock
      rw [run_settling] at hstart hend
      rw [advance_fst]
      simp only [Span.le_def, Span.nanos_add] at hstart hgoal hend ⊢
      omega
    have hevolves := s.evolves_run (s.turns (.advance time))
    rw [run_turns, obey] at hevolves
    rw [obey, hevolves.hasRoom_eq, hs.same] at hroom
    obtain ⟨htimed, -⟩ := hs.pass_settled halign (inClock_of_earlier hlate hroom)
    rw [Sink.turns]
    refine htimed.append ?_
    rw [run_append_fst, run_settling, run_passing]
    exact timed_settling _

theorem schedule (hs : OnTime settings s h) (halign : settings.alignToMinute = false)
    (cs : List Command) (hroom : (s.obeyAll cs).hasRoom = true) : s.Timed (s.schedule cs) := by
  induction cs generalizing s h with
  | nil => trivial
  | cons c cs ih =>
    have hroom' : (s.obey c).1.hasRoom = true := ((s.obey c).1.evolves_obeyAll cs).hasRoom hroom
    have htimed := hs.turns halign c hroom'
    have hnext := hs.run halign htimed (by rwa [run_turns])
    rw [run_turns] at hnext
    rw [Sink.schedule]
    apply htimed.append
    rw [run_turns]
    exact ih hnext hroom

/--
After a time has passed, the worker waits or has ended.
-/
theorem advance (hs : OnTime settings s h) (halign : settings.alignToMinute = false) (time : Span)
    (hroom : inClock (s.epoch + (s.clock + time) + settings.period) = true) :
    (s.advance time).1.isIdle = true ∧ (s.advance time).1.clock = s.clock + time := by
  obtain ⟨-, harrived, hroom', h', hafter⟩ := hs.pass_settled halign hroom
  obtain ⟨hidle, hclock, -⟩ := hafter.settle halign hroom'
  rw [advance_fst]
  exact ⟨hidle, hclock.trans harrived⟩

end OnTime

/--
Each report tells of samples that were accepted and that no report before it has told of, name by
name in the order of their bytes, and of nothing else. It tells of all of them but for some that were
accepted at the very time of the report, which it leaves to the next one. The reports come at the
multiples of the period, and one more, which leaves nothing, when nobody can submit samples any more.
This holds of all turns that fit the clock, if ticks that are taken in time keep to the period, and
as long as the clock has room for one more period. What one does with a sink comes down to such
turns, after which the worker waits or has ended.
-/
theorem reports_cut_samples_into_periods (settings : Settings) (epoch untilMinute : Span)
    (timer : Timer) (hkeeps : timer.Keeps epoch settings.period) (s : Sink)
    (hs : Sink.spawn settings epoch untilMinute timer = .ok s)
    (halign : settings.alignToMinute = false) :
    (∀ as, s.Timed as → (s.run as).1.hasRoom = true →
      let h := s.noted as
      let t := (s.run as).1
      Reported settings h ∧ t.written = (reports h).flatMap (·.lines) ∧
      (∀ x, .sample x ∈ h → s.ignores x.sample.name = false) ∧
      (∀ due, t.worker = .running due →
        due.nanos = ((reports h).length + 1) * settings.period.nanos ∧
        (reports h).length * settings.period.nanos ≤ t.clock.nanos ∧ t.clock ≤ due) ∧
      (t.isOpen = false →
        t.worker = .finished ∧ ∃ pre r, h = pre ++ [.report r] ∧ r.isLast = true)) ∧
    ∀ cs : List Command, (s.obeyAll cs).hasRoom = true →
      let t := s.obeyAll cs
      s.Timed (s.schedule cs) ∧ (s.run (s.schedule cs)).1 = t ∧
      (∀ time, inClock (epoch + (t.clock + time) + settings.period) = true →
        (t.advance time).1.isIdle = true ∧ (t.advance time).1.clock = t.clock + time) ∧
      (t.isHeld = false → t.settle.1.worker = .finished) := by
  have hstart := OnTime.of_spawn hkeeps hs
  refine ⟨?_, ?_⟩
  . intro as has hroom h t
    have hrun : OnTime settings t h := hstart.run halign has hroom
    have hsame : t.settings = s.settings := hrun.same.trans (settings_of_spawn hs).symm
    refine ⟨hrun.reported, hrun.written, ?_, hrun.running, hrun.ended⟩
    intro x hx
    rw [← ignores_congr hsame]
    exact hrun.accepted x hx
  . intro cs hroom t
    have htimed := hstart.schedule halign cs hroom
    have hrun : OnTime settings t _ := s.run_schedule cs ▸
      hstart.run halign htimed (by rwa [run_schedule])
    have hepoch : t.epoch = epoch := by rw [(s.evolves_obeyAll cs).epoch, eq_of_spawn hs]
    refine ⟨htimed, s.run_schedule cs, ?_, (hrun.settle halign hroom).2.2⟩
    intro time hlater
    exact hrun.advance halign time (hepoch ▸ hlater)

/--
A sink that reports every second.
-/
def brisk : Settings :=
  { Settings.standard "shop" with flushSeconds := 1, alignToMinute := false, ignored := ["tmp."] }

/--
A sink of these settings as it is spawned when the clock of the machine shows zero.
-/
def idleShop : Sink where
  settings := brisk
  handles := [true]
  queue := []
  dropped := 0
  worker := .fresh
  held := .empty
  written := []
  clock := .zero
  epoch := .zero
  untilMinute := .zero
  timer := .delaying .zero

/--
Three samples are submitted, one of which is left out. Two reports are due while the time passes,
the second of them without samples. Then one more sample comes, and the only handle is dropped.
-/
def visits : List Command :=
  [.submit 0 ⟨"b", 1⟩, .submit 0 ⟨"a", 2⟩, .submit 0 ⟨"tmp.x", 3⟩, .advance (.ofMillis 2500),
   .submit 0 ⟨"a", 4⟩, .drop 0, .settle]

theorem visits_reported :
    Sink.spawn brisk .zero .zero (.delaying .zero) = .ok idleShop ∧
      (reports (idleShop.noted (idleShop.schedule visits))).map
          (fun r => (r.time.millis, r.isLast)) =
        [(1000, false), (2000, false), (2500, true)] ∧
      Reported brisk (idleShop.noted (idleShop.schedule visits)) := by
  have hroom : (idleShop.obeyAll visits).hasRoom = true := by decide +kernel
  obtain ⟨hreports, hcommands⟩ := reports_cut_samples_into_periods brisk .zero .zero
    (.delaying .zero) (Timer.keeps_delaying .zero brisk.period) idleShop rfl (by decide +kernel)
  obtain ⟨htimed, hrun, -⟩ := hcommands visits hroom
  exact ⟨rfl, by decide +kernel, (hreports _ htimed (hrun ▸ hroom)).1⟩

/--
The time of each report, how many lines it has, and how many samples it leaves to the next one.
-/
def cuts (h : List Entry) : List (Nat × Nat × Nat) :=
  h.inits.filterMap fun before => before.getLast?.bind fun e => e.report?.map fun r =>
    (r.time.millis, r.lines.length, (untold before).length)

/--
A sample that is accepted at the very time of a report may come before it and still be left to the
next one. If the time passes while a report is due, the reports leave the multiples of the period.
And a queue may be too large to be made.
-/
theorem reports_miss_period_bounds :
    (idleShop.Timed [.begin, .pass (.ofSeconds 1), .submit 0 ⟨"a", 1⟩, .flush] ∧
      cuts (idleShop.noted [.begin, .pass (.ofSeconds 1), .submit 0 ⟨"a", 1⟩, .flush]) =
        [(1000, 0, 1)]) ∧
    cuts (idleShop.noted [.begin, .pass (.ofMillis 2500), .flush, .pass (.ofSeconds 1), .flush]) =
      [(2500, 0, 0), (3500, 0, 0)] ∧
    Sink.spawn { brisk with capacity := 2305843009213693952 } .zero .zero (.delaying .zero) =
      .error .tooLarge := by
  refine ⟨⟨?_, ?_⟩, ?_, ?_⟩
  . decide +kernel
  . decide +kernel
  . decide +kernel
  . rfl

end Upkeep.Metrics.Sink
