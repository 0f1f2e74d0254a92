import Upkeep.Proofs.Lists
import Upkeep.Proofs.Metrics.Accounting
import Upkeep.Proofs.Metrics.Summary

/-!
This module contains what the reports of a sink tell, if time passes only while its worker has
nothing to do. The reports cut the samples that were accepted into periods: each report tells of the
samples that no report before it has told of, and comes when its period is over, or at the end. What
is accepted at the very time of a report may be left to the next one.
-/

namespace Upkeep.Metrics

theorem Settings.period_pos (settings : Settings) : 0 < settings.period.nanos := by
  simp only [period, Span.ofSeconds]
  omega

/--
Lines that are written at one time, for the last time or not.
-/
structure Report where
  time : Span
  isLast : Bool
  lines : List Line

/--
The number of samples that a report tells of.
-/
def Report.count (r : Report) : Nat := (r.lines.map Line.count).sum

/--
A sample, and when it was accepted.
-/
structure Arrival where
  time : Span
  sample : Sample

/--
What is noted of a run: a sample was accepted, or a report was written.
-/
inductive Entry where
  | sample (x : Arrival)
  | report (r : Report)

/--
The report of an entry.
-/
def Entry.report? : Entry → Option Report
  | .sample _ => none
  | .report r => some r

/--
All reports.
-/
def reports (h : List Entry) : List Report := h.filterMap Entry.report?

/--
The samples that no report has told of, after one more entry. A report tells of those that came
first.
-/
def leave (xs : List Arrival) : Entry → List Arrival
  | .sample x => xs ++ [x]
  | .report r => xs.drop r.count

/--
The samples that no report has told of.
-/
def untold (h : List Entry) : List Arrival := h.foldl leave []

theorem reports_append (h es : List Entry) : reports (h ++ es) = reports h ++ reports es :=
  List.filterMap_append

theorem untold_concat (h : List Entry) (e : Entry) : untold (h ++ [e]) = leave (untold h) e := by
  simp [untold]

namespace Sink

/--
Whether a sample is put into the queue.
-/
def accepts (s : Sink) (x : Sample) : Bool :=
  !s.ignores x.name && s.isOpen && s.queue.length < s.capacity

def isDue (s : Sink) : Bool :=
  match s.worker with
  | .running due => due ≤ s.clock
  | _ => false

/--
Whether the worker is about to end, for nothing is queued and nobody can submit samples any more.
-/
def isLeft (s : Sink) : Bool :=
  match s.worker with
  | .running _ => s.queue.isEmpty && !s.isHeld
  | _ => false

/--
Whether the worker waits: for a sample or the time of the next report, or for nothing if it has
ended.
-/
def isIdle (s : Sink) : Bool :=
  match s.worker with
  | .fresh => false
  | .running due => s.queue.isEmpty && s.isHeld && !decide (due ≤ s.clock)
  | _ => true

def writes (s : Sink) (a : SinkAction) : List Line := (s.step a).1.written.drop s.written.length

def entries (s : Sink) (a : SinkAction) : List Entry :=
  match a with
  | .flush => if s.isDue && s.flush.isOpen then [.report ⟨s.clock, false, s.writes a⟩] else []
  | .close => if s.isLeft then [.report ⟨s.clock, true, s.writes a⟩] else []
  | _ => ((s.offered a).filter s.accepts).map fun x => .sample ⟨s.clock, x⟩

def noted (s : Sink) (as : List SinkAction) : List Entry :=
  Run.history (fun (s : Sink) a => (s.step a).1) entries s as

/--
Whether an action fits a clock that stands still while the worker has something to do, and that
stops when a report is due. Nobody stops the worker by force.
-/
def KeepsTime (s : Sink) : SinkAction → Prop
  | .pass time => s.isIdle = true ∧ ∀ due ∈ s.due?, s.clock + time ≤ due
  | .abort => False
  | _ => True

instance (s : Sink) : (a : SinkAction) → Decidable (s.KeepsTime a)
  | .pass time =>
    inferInstanceAs (Decidable (s.isIdle = true ∧ ∀ due ∈ s.due?, s.clock + time ≤ due))
  | .abort => inferInstanceAs (Decidable False)
  | .submit _ _ | .clone | .drop _ | .begin | .receive | .flush | .close =>
    inferInstanceAs (Decidable True)

/--
Whether all actions of a series fit such a clock.
-/
def Timed (s : Sink) (as : List SinkAction) : Prop :=
  Run.Obeys (fun (s : Sink) a => (s.step a).1) KeepsTime s as

instance (s : Sink) (as : List SinkAction) : Decidable (s.Timed as) :=
  inferInstanceAs (Decidable (Run.Obeys ..))

def hasRoom (s : Sink) : Bool := inClock (s.epoch + s.clock + s.settings.period)

theorem Evolves.hasRoom_eq {s t : Sink} (h : s.Evolves t) :
    t.hasRoom = inClock (s.epoch + t.clock + s.settings.period) := by
  rw [Sink.hasRoom, h.epoch, h.settings]

theorem Evolves.hasRoom {s t : Sink} (h : s.Evolves t) (hroom : t.hasRoom = true) :
    s.hasRoom = true :=
  inClock_of_earlier h.clock (h.hasRoom_eq ▸ hroom)

/--
If there is room at the end of a run, there is room all the time.
-/
theorem Timed.with_room {s : Sink} {as : List SinkAction} (has : s.Timed as)
    (hroom : (s.run as).1.hasRoom = true) :
    Run.Obeys (fun (s : Sink) a => (s.step a).1) (fun s a => s.KeepsTime a ∧ s.hasRoom = true) s
      as := by
  induction as generalizing s with
  | nil => trivial
  | cons a as ih =>
    refine ⟨⟨has.1, (s.evolves_run _).hasRoom hroom⟩, ih has.2 ?_⟩
    rwa [run_cons_fst] at hroom

def heldLines (s : Sink) : List Line :=
  report s.settings.level s.settings.server s.held.summaries

/--
What an action that fits the clock does to a sink, and what is noted of it.
-/
inductive Turn (s : Sink) : Sink → List Entry → Prop where
  | other (handles : List Bool) (dropped : Nat) : Turn s { s with handles, dropped } []
  | accept (x : Sample) (hx : s.ignores x.name = false) (hopen : s.isOpen = true) :
    Turn s { s with queue := s.queue ++ [x] } [.sample ⟨s.clock, x⟩]
  | start (hw : s.worker = .fresh) (hclock : inClock (s.epoch + s.clock + s.firstDelay) = true) :
    Turn s { s with worker := .running (s.clock + s.firstDelay) } []
  | crash (hw : s.worker = .fresh) (hclock : inClock (s.epoch + s.clock + s.firstDelay) = false) :
    Turn s s.crash []
  | take (due : Span) (x : Sample) (rest : List Sample) (hw : s.worker = .running due)
    (hq : s.queue = x :: rest) :
    Turn s { s with queue := rest, held := s.held.record x.name x.value } []
  | report (due later : Span) (hw : s.worker = .running due) (hdue : due ≤ s.clock)
    (hnext : s.nextDue? due = some later) :
    Turn s { s.writeReport with worker := .running later } [.report ⟨s.clock, false, s.heldLines⟩]
  | fail (due : Span) (hw : s.worker = .running due) (hdue : due ≤ s.clock)
    (hnext : s.nextDue? due = none) : Turn s s.crash []
  | finish (due : Span) (hw : s.worker = .running due) (hq : s.queue = []) :
    Turn s { s.writeReport with worker := .finished } [.report ⟨s.clock, true, s.heldLines⟩]
  | pass (time : Span) (hidle : s.isIdle = true) (hdue : ∀ due ∈ s.due?, s.clock + time ≤ due) :
    Turn s { s with clock := s.clock + time } []

theorem written_writeReport (s : Sink) : s.writeReport.written = s.written ++ s.heldLines := rfl

theorem turn_submit (s : Sink) (handle : Nat) (x : Sample) :
    s.Turn (s.submit handle x) (s.entries (.submit handle x)) := by
  simp only [entries, offered, submit]
  split
  . unfold enqueue
    cases hx : s.ignores x.name with
    | true => simpa [accepts, hx] using Turn.other (s := s) s.handles s.dropped
    | false =>
      by_cases hroom : (s.isOpen && decide (s.queue.length < s.capacity)) = true
      . have haccepts : s.accepts x = true := by simpa [accepts, hx] using hroom
        have hopen := (Bool.and_eq_true_iff.1 hroom).1
        simpa [haccepts, hroom] using Turn.accept x hx hopen
      . have hnot : s.accepts x = false := by simpa [accepts, hx] using hroom
        simpa [hnot, hroom] using Turn.other (s := s) s.handles (s.dropped + 1)
  . exact .other s.handles s.dropped

theorem turn_flush (s : Sink) : s.Turn s.flush (s.entries .flush) := by
  rw [entries]
  unfold isDue
  cases hw : s.worker with
  | running due =>
    by_cases hdue : due ≤ s.clock
    . cases hnext : s.nextDue? due with
      | some later =>
        have hflush := flush_of_due hw hdue hnext
        have hwrites : s.writes .flush = s.heldLines := by
          simp [writes, step, hflush, written_writeReport]
        simpa [hdue, hwrites, hflush, isOpen] using Turn.report due later hw hdue hnext
      | none =>
        have hflush : s.flush = s.crash := by simp [flush, hw, hdue, hnext]
        simpa [hflush, isOpen, crash] using Turn.fail due hw hdue hnext
    . have hflush := flush_of_not_due hw hdue
      simpa [hdue, hflush] using Turn.other (s := s) s.handles s.dropped
  | _ =>
    have hflush : s.flush = s := by simp [flush, hw]
    simpa [hflush] using Turn.other (s := s) s.handles s.dropped

theorem turn_close (s : Sink) : s.Turn s.close.1 (s.entries .close) := by
  rw [entries]
  unfold isLeft
  cases hw : s.worker with
  | running due =>
    by_cases hleft : (s.queue.isEmpty && !s.isHeld) = true
    . have hclose : s.close.1 = { s.writeReport with worker := .finished } := by
        simp only [close, hw, hleft, if_true]
      have hwrites : s.writes .close = s.heldLines := by
        simp [writes, step, hclose, written_writeReport]
      rw [Bool.and_eq_true, List.isEmpty_iff] at hleft
      simpa [hleft, hwrites, hclose] using Turn.finish due hw hleft.1
    . have hclose : s.close.1 = s := by simp only [close, hw, hleft]; rfl
      simpa only [hleft, hclose, Bool.false_eq_true, if_false] using
        Turn.other (s := s) s.handles s.dropped
  | _ =>
    have hclose : s.close.1 = s := by simp [close, hw]
    simpa [hclose] using Turn.other (s := s) s.handles s.dropped

/--
Every step that fits the clock is one of the turns.
-/
theorem turn_step (s : Sink) (a : SinkAction) (ha : s.KeepsTime a) :
    s.Turn (s.step a).1 (s.entries a) := by
  have hstill : s.Turn s [] := .other s.handles s.dropped
  cases a with
  | submit handle x => exact s.turn_submit handle x
  | clone => exact .other (s.handles ++ [true]) s.dropped
  | drop handle => exact .other (s.handles.set handle false) s.dropped
  | begin =>
    have heffect := s.begin_effect
    rw [step]
    generalize s.begin = next at heffect ⊢
    cases heffect with
    | idle => exact hstill
    | start hw hclock => exact .start hw hclock
    | crash hw hclock => exact .crash hw hclock
  | receive =>
    have heffect := s.receive_effect
    rw [step]
    generalize s.receive = next at heffect ⊢
    cases heffect with
    | idle => exact hstill
    | take due x rest hw hq => exact .take due x rest hw hq
  | flush => exact s.turn_flush
  | close => exact s.turn_close
  | abort => exact ha.elim
  | pass time => exact .pass time ha.1 ha.2

/--
The reports of a history. Each tells of samples that no report before it has told of, in the order
in which they were accepted. What it leaves was accepted at the very time of the report. One that is
not the last comes when its period is over. The last one comes within its period and leaves nothing,
and nothing comes after it.
-/
def Reported (settings : Settings) (h : List Entry) : Prop :=
  ∀ pre r post, h = pre ++ .report r :: post →
    Tells settings (((untold pre).take r.count).map (·.sample)) r.lines ∧
    (∀ x ∈ (untold pre).drop r.count, x.time = r.time) ∧
    (r.isLast = false → r.time.nanos = ((reports pre).length + 1) * settings.period.nanos) ∧
    (r.isLast = true → (untold pre).drop r.count = [] ∧ post = [] ∧
      (reports pre).length * settings.period.nanos ≤ r.time.nanos ∧
      r.time.nanos ≤ ((reports pre).length + 1) * settings.period.nanos)

theorem Reported.sample {settings : Settings} {h : List Entry} (hh : Reported settings h)
    (x : Arrival) (hopen : ∀ r ∈ reports h, r.isLast = false) :
    Reported settings (h ++ [.sample x]) := by
  intro pre r post heq
  obtain ⟨-, habsurd, -⟩ | ⟨post', rfl, hbefore⟩ := split_of_concat heq
  . cases habsurd
  . obtain ⟨htells, hleft, htime, -⟩ := hh pre r post' hbefore
    have hr : r ∈ reports h := by simp [hbefore, reports, Entry.report?]
    exact ⟨htells, hleft, htime, fun hlast => absurd hlast (by simp [hopen r hr])⟩

theorem Reported.report {settings : Settings} {h : List Entry} (hh : Reported settings h)
    (hopen : ∀ r ∈ reports h, r.isLast = false) {r : Report}
    (htells : Tells settings (((untold h).take r.count).map (·.sample)) r.lines)
    (hleft : ∀ x ∈ (untold h).drop r.count, x.time = r.time)
    (htime : r.isLast = false → r.time.nanos = ((reports h).length + 1) * settings.period.nanos)
    (hlast : r.isLast = true → (untold h).drop r.count = [] ∧
      (reports h).length * settings.period.nanos ≤ r.time.nanos ∧
      r.time.nanos ≤ ((reports h).length + 1) * settings.period.nanos) :
    Reported settings (h ++ [.report r]) := by
  intro pre q post heq
  obtain ⟨rfl, hq, rfl⟩ | ⟨post', rfl, hbefore⟩ := split_of_concat heq
  . cases hq
    exact ⟨htells, hleft, htime, fun h => ⟨(hlast h).1, rfl, (hlast h).2⟩⟩
  . obtain ⟨htells, hleft, htime, -⟩ := hh pre q post' hbefore
    have hq : q ∈ reports h := by simp [hbefore, reports, Entry.report?]
    exact ⟨htells, hleft, htime, fun hlast => absurd hlast (by simp [hopen q hq])⟩

/--
A sink whose worker takes its turns in time. What no report has told of is held or queued, and what
is queued was accepted just now.
-/
structure OnTime (settings : Settings) (s : Sink) (h : List Entry) : Prop where
  same : s.settings = settings
  keeps : s.timer.Keeps s.epoch settings.period
  accepted : ∀ x, .sample x ∈ h → s.ignores x.sample.name = false
  reported : Reported settings h
  written : s.written = (reports h).flatMap (·.lines)
  fresh : s.worker = .fresh → s.clock = .zero ∧ reports h = []
  running : ∀ due, s.worker = .running due →
    due.nanos = ((reports h).length + 1) * settings.period.nanos ∧
    (reports h).length * settings.period.nanos ≤ s.clock.nanos ∧ s.clock ≤ due
  held : s.isOpen = true → ∃ taken queued, untold h = taken ++ queued ∧
    s.held = .ofSamples (taken.map (·.sample)) ∧ s.queue = queued.map (·.sample) ∧
    ∀ x ∈ queued, x.time = s.clock
  opened : s.isOpen = true → ∀ r ∈ reports h, r.isLast = false
  ended : s.isOpen = false → s.worker = .finished ∧
    ∃ pre r, h = pre ++ [.report r] ∧ r.isLast = true

namespace OnTime

variable {settings : Settings} {s next : Sink} {h es : List Entry}

theorem isOpen_of_running {due : Span} (hw : s.worker = .running due) : s.isOpen = true := by
  simp [isOpen, hw]

/--
A report tells of what is held, and leaves what is queued.
-/
theorem tells_heldLines (hs : OnTime settings s h) {due : Span} (hw : s.worker = .running due)
    (isLast : Bool) :
    let r : Report := ⟨s.clock, isLast, s.heldLines⟩
    Tells settings (((untold h).take r.count).map (·.sample)) r.lines ∧
      ((untold h).drop r.count).map (·.sample) = s.queue ∧
      ∀ x ∈ (untold h).drop r.count, x.time = r.time := by
  intro r
  obtain ⟨taken, queued, hsplit, hheld, hqueue, htime⟩ := hs.held (isOpen_of_running hw)
  have hcount : r.count = taken.length := by
    have hsum : r.count = s.held.held := (sum_report ..).trans s.held.sum_summaries
    rw [hsum, hheld, Aggregator.held_ofSamples, List.length_map]
  rw [hsplit, hcount, List.take_left, List.drop_left]
  refine ⟨?_, hqueue.symm, htime⟩
  have hlines : r.lines = Metrics.report settings.level settings.server
      (Aggregator.ofSamples (taken.map (·.sample))).summaries := by
    rw [← hheld, ← hs.same]
    rfl
  rw [hlines]
  exact Aggregator.tells_report settings _

theorem accept (hs : OnTime settings s h) (x : Sample) (hx : s.ignores x.name = false)
    (hopen : s.isOpen = true) :
    OnTime settings { s with queue := s.queue ++ [x] } (h ++ [.sample ⟨s.clock, x⟩]) := by
  have hreports : reports (h ++ [.sample ⟨s.clock, x⟩]) = reports h := by
    simp [reports, Entry.report?]
  refine
    { same := hs.same
      keeps := hs.keeps
      accepted := ?_
      reported := hs.reported.sample _ (hs.opened hopen)
      written := by rw [hreports]; exact hs.written
      fresh := by rw [hreports]; exact hs.fresh
      running := by rw [hreports]; exact hs.running
      held := ?_
      opened := by rw [hreports]; exact hs.opened
      ended := ?_ }
  . intro y hy
    rcases List.mem_append.1 hy with hy | hy
    . exact hs.accepted y hy
    . cases List.mem_singleton.1 hy
      exact hx
  . intro _
    obtain ⟨taken, queued, hsplit, hheld, hqueue, htime⟩ := hs.held hopen
    refine ⟨taken, queued ++ [⟨s.clock, x⟩], ?_, hheld, by simp [hqueue], ?_⟩
    . rw [untold_concat, leave, hsplit, List.append_assoc]
    . intro y hy
      rcases List.mem_append.1 hy with hy | hy
      . exact htime y hy
      . rw [List.mem_singleton.1 hy]
  . intro hclosed
    exact absurd hopen (by simp [show s.isOpen = false from hclosed])

theorem start (hs : OnTime settings s h) (halign : settings.alignToMinute = false)
    (hw : s.worker = .fresh) :
    OnTime settings { s with worker := .running (s.clock + s.firstDelay) } h := by
  have hopen : s.isOpen = true := by simp [isOpen, hw]
  obtain ⟨hclock, hnone⟩ := hs.fresh hw
  have hdelay : s.firstDelay = settings.period := by simp [firstDelay, hs.same, halign]
  refine
    { same := hs.same
      keeps := hs.keeps
      accepted := hs.accepted
      reported := hs.reported
      written := hs.written
      fresh := by simp
      running := ?_
      held := fun _ => hs.held hopen
      opened := fun _ => hs.opened hopen
      ended := by simp [isOpen] }
  intro due hdue
  cases hdue
  rw [hdelay, hclock, hnone]
  refine ⟨?_, by simp, ?_⟩
  . simp [Span.zero]
  . simp [Span.le_def, Span.zero]

theorem take (hs : OnTime settings s h) {due : Span} {x : Sample} {rest : List Sample}
    (hw : s.worker = .running due) (hq : s.queue = x :: rest) :
    OnTime settings { s with queue := rest, held := s.held.record x.name x.value } h := by
  refine { hs with held := ?_ }
  intro _
  obtain ⟨taken, queued, hsplit, hheld, hqueue, htime⟩ := hs.held (isOpen_of_running hw)
  rw [hq, eq_comm] at hqueue
  obtain ⟨y, ys, rfl, rfl, rfl⟩ := List.map_eq_cons_iff.1 hqueue
  rw [List.forall_mem_cons] at htime
  refine ⟨taken ++ [y], ys, by simp [hsplit], ?_, rfl, htime.2⟩
  rw [List.map_append, List.map_singleton, Aggregator.ofSamples_concat, ← hheld]

theorem clock_eq (hs : OnTime settings s h) {due : Span} (hw : s.worker = .running due)
    (hdue : due ≤ s.clock) : s.clock = due := by
  obtain ⟨n⟩ := due
  exact congrArg Span.mk (Nat.le_antisymm (hs.running _ hw).2.2 hdue)

/--
A report that is written in time is followed by one that is due a period later.
-/
theorem nextDue?_eq (hs : OnTime settings s h) (hroom : s.hasRoom = true) {due : Span}
    (hdue : s.clock = due) : s.nextDue? due = some (due + settings.period) := by
  rw [hasRoom, hs.same, hdue] at hroom
  rw [nextDue?, hs.same, hdue]
  exact hs.keeps due due (Timer.isPrompt_of_le (Nat.le_refl _)) hroom

theorem mem_accepted (hs : OnTime settings s h) (r : Report) (x : Arrival)
    (hx : .sample x ∈ h ++ [.report r]) : s.ignores x.sample.name = false := by
  rcases List.mem_append.1 hx with hx | hx
  . exact hs.accepted x hx
  . cases List.mem_singleton.1 hx

theorem report (hs : OnTime settings s h) {due : Span} (hw : s.worker = .running due)
    (hdue : s.clock = due) :
    OnTime settings { s.writeReport with worker := .running (due + settings.period) }
      (h ++ [.report ⟨s.clock, false, s.heldLines⟩]) := by
  obtain ⟨hnanos, hlow, hhigh⟩ := hs.running due hw
  obtain ⟨htells, hqueue, hleft⟩ := hs.tells_heldLines hw false
  have hreports : reports (h ++ [.report ⟨s.clock, false, s.heldLines⟩]) =
      reports h ++ [⟨s.clock, false, s.heldLines⟩] := reports_append h _
  refine
    { same := hs.same
      keeps := hs.keeps
      accepted := hs.mem_accepted _
      reported := ?_
      written := ?_
      fresh := by simp
      running := ?_
      held := fun _ => ⟨[], _, untold_concat h _, rfl, hqueue.symm, hleft⟩
      opened := ?_
      ended := by simp [isOpen] }
  . refine hs.reported.report (hs.opened (isOpen_of_running hw)) htells hleft ?_ (by simp)
    intro _
    rw [hdue, hnanos]
  . rw [hreports, List.flatMap_append, ← hs.written]
    simp [written_writeReport]
  . intro due' hw'
    cases hw'
    have hclock : s.clock.nanos = due.nanos := congrArg Span.nanos hdue
    rw [hreports, List.length_append, List.length_singleton, Span.nanos_add, hnanos]
    refine ⟨(Nat.succ_mul ..).symm, ?_, ?_⟩
    . exact Nat.le_of_eq (hnanos.symm.trans hclock.symm)
    . rw [Span.le_def, Span.nanos_add]
      exact Nat.le_add_right_of_le hhigh
  . intro _ r hr
    rw [hreports] at hr
    rcases List.mem_append.1 hr with hr | hr
    . exact hs.opened (isOpen_of_running hw) r hr
    . rw [List.mem_singleton.1 hr]

theorem finish (hs : OnTime settings s h) {due : Span} (hw : s.worker = .running due)
    (hq : s.queue = []) :
    OnTime settings { s.writeReport with worker := .finished }
      (h ++ [.report ⟨s.clock, true, s.heldLines⟩]) := by
  obtain ⟨hnanos, hlow, hhigh⟩ := hs.running due hw
  obtain ⟨htells, hqueue, hleft⟩ := hs.tells_heldLines hw true
  rw [hq, List.map_eq_nil_iff] at hqueue
  refine
    { same := hs.same
      keeps := hs.keeps
      accepted := hs.mem_accepted _
      reported := ?_
      written := ?_
      fresh := by simp
      running := by simp
      held := by simp [isOpen]
      opened := by simp [isOpen]
      ended := fun _ => ⟨rfl, h, _, rfl, rfl⟩ }
  . refine hs.reported.report (hs.opened (isOpen_of_running hw)) htells hleft (by simp) ?_
    intro _
    exact ⟨hqueue, hlow, hnanos ▸ hhigh⟩
  . rw [reports_append, List.flatMap_append, ← hs.written]
    simp [written_writeReport, reports, Entry.report?]

theorem pass (hs : OnTime settings s h) (time : Span) (hidle : s.isIdle = true)
    (hdue : ∀ due ∈ s.due?, s.clock + time ≤ due) :
    OnTime settings { s with clock := s.clock + time } h := by
  refine { hs with fresh := ?_, running := ?_, held := ?_ }
  . intro hw
    have hw' : s.worker = .fresh := hw
    simp [isIdle, hw'] at hidle
  . intro due hw
    have hw' : s.worker = .running due := hw
    obtain ⟨hnanos, hlow, -⟩ := hs.running due hw'
    exact ⟨hnanos, Nat.le_add_right_of_le hlow, hdue due (by simp [due?, hw'])⟩
  . -- nothing is queued while time passes
    intro hopen
    have hopen : s.isOpen = true := hopen
    obtain ⟨taken, queued, hsplit, hheld, hqueue, -⟩ := hs.held hopen
    have hq : s.queue = [] := by
      cases hw : s.worker with
      | running due =>
        simp only [isIdle, hw, Bool.and_eq_true, List.isEmpty_iff] at hidle
        exact hidle.1.1
      | fresh => simp [isIdle, hw] at hidle
      | finished | crashed | aborted => simp [isOpen, hw] at hopen
    rw [hq, eq_comm, List.map_eq_nil_iff] at hqueue
    subst hqueue
    exact ⟨taken, [], hsplit, hheld, hq, by simp⟩

theorem turn (hs : OnTime settings s h) (halign : settings.alignToMinute = false)
    (hroom : s.hasRoom = true) (ht : s.Turn next es) : OnTime settings next (h ++ es) := by
  cases ht with
  | other handles dropped =>
    rw [List.append_nil]
    exact { hs with }
  | accept x hx hopen => exact hs.accept x hx hopen
  | start hw hclock =>
    rw [List.append_nil]
    exact hs.start halign hw
  | crash hw hnot =>
    have hdelay : s.firstDelay = s.settings.period := by simp [firstDelay, hs.same, halign]
    rw [hdelay] at hnot
    exact absurd hroom (by simp [hasRoom, hnot])
  | take due x rest hw hq =>
    rw [List.append_nil]
    exact hs.take hw hq
  | report due later hw hdue hnext =>
    have hclock := hs.clock_eq hw hdue
    rw [hs.nextDue?_eq hroom hclock, Option.some.injEq] at hnext
    exact hnext ▸ hs.report hw hclock
  | fail due hw hdue hnext =>
    rw [hs.nextDue?_eq hroom (hs.clock_eq hw hdue)] at hnext
    cases hnext
  | finish due hw hq => exact hs.finish hw hq
  | pass time hidle hdue =>
    rw [List.append_nil]
    exact hs.pass time hidle hdue

theorem run (hs : OnTime settings s h) (halign : settings.alignToMinute = false)
    {as : List SinkAction} (has : s.Timed as) (hroom : (s.run as).1.hasRoom = true) :
    OnTime settings (s.run as).1 (h ++ s.noted as) := by
  have hrule := has.with_room hroom
  rw [run_fst]
  exact Run.invariant (fun (s : Sink) a => (s.step a).1) entries _ (OnTime settings)
    (fun t _ a ha ht => ht.turn halign ha.2 (t.turn_step a ha.1)) as s h hs hrule

theorem of_spawn {epoch untilMinute : Span} {timer : Timer}
    (hkeeps : timer.Keeps epoch settings.period)
    (hs : Sink.spawn settings epoch untilMinute timer = .ok s) : OnTime settings s [] := by
  rw [eq_of_spawn hs]
  exact
    { same := rfl
      keeps := hkeeps
      accepted := by simp
      reported := fun pre r post heq => by simp at heq
      written := rfl
      fresh := fun _ => ⟨rfl, rfl⟩
      running := by simp
      held := fun _ => ⟨[], [], rfl, rfl, rfl, by simp⟩
      opened := by simp [reports]
      ended := by simp [isOpen] }

end OnTime

end Sink

end Upkeep.Metrics
