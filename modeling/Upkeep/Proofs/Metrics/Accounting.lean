import Upkeep.Proofs.Metrics.Aggregate
import Upkeep.Proofs.Metrics.Effect

/-!
This module contains the proof that a report sink neither loses nor invents samples: each one that
is not left out for its name is dropped, queued, held or reported, and counts in one of them only.
-/

namespace Upkeep.Metrics.Sink

/--
The number of samples that the lines of all reports tell of.
-/
def reported (s : Sink) : Nat := (s.written.map Line.count).sum

/--
How many of some samples are not left out.
-/
def heeded (s : Sink) (xs : List Sample) : Nat := xs.countP fun x => !s.ignores x.name

theorem ignores_congr {s origin : Sink} (h : s.settings = origin.settings) (name : String) :
    s.ignores name = origin.ignores name := by
  rw [ignores, ignores, h]

theorem heeded_congr {s origin : Sink} (h : s.settings = origin.settings) (xs : List Sample) :
    s.heeded xs = origin.heeded xs := by
  simp only [heeded, ignores_congr h]

theorem heeded_append (s : Sink) (xs ys : List Sample) :
    s.heeded (xs ++ ys) = s.heeded xs + s.heeded ys :=
  List.countP_append

theorem reported_writeReport (s : Sink) : s.writeReport.reported = s.reported + s.held.held := by
  simp [reported, writeReport, Aggregator.drain, sum_report, Aggregator.sum_summaries]

/--
While the worker stands or has ended by itself, a number of samples is what the sink accounts for.
-/
structure Balanced (s : Sink) (n : Nat) : Prop where
  total : s.worker ≠ .crashed → s.worker ≠ .aborted →
    n = s.dropped + s.reported + s.queue.length + s.held.held
  emptied : s.worker = .finished → s.queue = [] ∧ s.held = .empty

namespace Balanced

variable {s next : Sink} {n : Nat} {offers : List Sample}

theorem of_running {due : Span} (hs : Balanced s n) (hw : s.worker = .running due) :
    n = s.dropped + s.reported + s.queue.length + s.held.held :=
  hs.total (by simp [hw]) (by simp [hw])

theorem still (hs : Balanced s n) (hworker : next.worker = s.worker)
    (hqueue : next.queue = s.queue) (hheld : next.held = s.held)
    (hwritten : next.written = s.written) (hdropped : next.dropped = s.dropped) :
    Balanced next n := by
  constructor
  . rw [hworker, hqueue, hheld, hdropped, reported, hwritten]
    exact hs.total
  . rw [hworker, hqueue, hheld]
    exact hs.emptied

theorem writeReport {due : Span} (hs : Balanced s n) (hw : s.worker = .running due) (w : Worker)
    (hlast : w = .finished → s.queue = []) : Balanced { s.writeReport with worker := w } n := by
  constructor
  . intro _ _
    have htotal := hs.of_running hw
    have hreported : ({ s.writeReport with worker := w } : Sink).reported =
        s.reported + s.held.held := s.reported_writeReport
    have hnone : ({ s.writeReport with worker := w } : Sink).held.held = 0 := rfl
    rw [hreported, hnone]
    show n = s.dropped + (s.reported + s.held.held) + s.queue.length + 0
    omega
  . intro hfinished
    exact ⟨hlast hfinished, rfl⟩

theorem step (hs : Balanced s n) {a : SinkAction} (he : s.Effect a next offers) :
    Balanced next (n + s.heeded offers) := by
  cases he with
  | ignore handle x hx => simpa [heeded, hx] using hs
  | queue handle x hx hopen hroom =>
    have hone : s.heeded [x] = 1 := by simp [heeded, hx]
    constructor
    . intro hcrashed haborted
      have htotal := hs.total hcrashed haborted
      simp only [hone, htotal, reported, List.length_append, List.length_singleton]
      omega
    . intro hfinished
      have hw : s.worker = .finished := hfinished
      simp [isOpen, hw] at hopen
  | lose handle x hx hfull =>
    have hone : s.heeded [x] = 1 := by simp [heeded, hx]
    refine ⟨?_, hs.emptied⟩
    intro hcrashed haborted
    have htotal := hs.total hcrashed haborted
    simp only [hone, htotal, reported]
    omega
  | start hw hclock =>
    refine ⟨fun _ _ => hs.total (by simp [hw]) (by simp [hw]), ?_⟩
    intro hfinished
    simp at hfinished
  | crash | fail => exact ⟨fun hcrashed => absurd rfl hcrashed, by simp [crash]⟩
  | take due x rest hw hq =>
    refine ⟨?_, by simp [hw]⟩
    intro _ _
    have htotal := hs.of_running hw
    rw [hq, List.length_cons] at htotal
    simp only [heeded, List.countP_nil, Aggregator.held_record, htotal, reported]
    omega
  | report due later hw hdue hnext => exact hs.writeReport hw _ (by simp)
  | finish due hw hq hheld => exact hs.writeReport hw _ fun _ => hq
  | abort hopen => exact ⟨fun _ haborted => absurd rfl haborted, by simp⟩
  | _ => exact hs.still rfl rfl rfl rfl rfl

end Balanced

/--
All that a sink queues, holds or has reported is for names that are not left out.
-/
structure Unmixed (s : Sink) : Prop where
  queue : ∀ x ∈ s.queue, s.ignores x.name = false
  held : ∀ name ∈ s.held.byName.keys, s.ignores name = false
  written : ∃ reports, s.written = report s.settings.level s.settings.server reports ∧
    ∀ e ∈ reports, s.ignores e.1 = false

namespace Unmixed

variable {s next : Sink} {offers : List Sample}

theorem of_held_written (hs : Unmixed s) (hsettings : next.settings = s.settings)
    (hqueue : ∀ x ∈ next.queue, s.ignores x.name = false) (hheld : next.held = s.held)
    (hwritten : next.written = s.written) : Unmixed next := by
  have hsame := ignores_congr hsettings
  refine ⟨?_, ?_, ?_⟩
  . intro x hx
    rw [hsame]
    exact hqueue x hx
  . intro name hname
    rw [hsame]
    exact hs.held name (hheld ▸ hname)
  . obtain ⟨reports, heq, hnames⟩ := hs.written
    refine ⟨reports, by rw [hwritten, hsettings, heq], ?_⟩
    intro e he
    rw [hsame]
    exact hnames e he

theorem writeReport (hs : Unmixed s) (w : Worker) :
    Unmixed { s.writeReport with worker := w } := by
  refine ⟨hs.queue, by simp [Sink.writeReport, Aggregator.drain], ?_⟩
  obtain ⟨reports, heq, hnames⟩ := hs.written
  refine ⟨reports ++ s.held.summaries, ?_, ?_⟩
  . simp [Sink.writeReport, Aggregator.drain, report, heq]
  . intro e he
    rcases List.mem_append.1 he with he | he
    . exact hnames e he
    . exact hs.held e.1 (s.held.mem_keys_of_mem_summaries e he)

theorem step (hs : Unmixed s) {a : SinkAction} (he : s.Effect a next offers) : Unmixed next := by
  cases he with
  | queue handle x hx =>
    refine hs.of_held_written rfl ?_ rfl rfl
    intro y hy
    rcases List.mem_append.1 hy with hy | hy
    . exact hs.queue y hy
    . rw [List.mem_singleton.1 hy]
      exact hx
  | crash | fail => exact ⟨by simp [crash], by simp [crash], hs.written⟩
  | take due x rest hw hq =>
    have hall := hs.queue
    rw [hq, List.forall_mem_cons] at hall
    refine ⟨hall.2, ?_, hs.written⟩
    intro name hname
    rcases (s.held.mem_keys_record x.name name x.value).1 hname with rfl | hname
    . exact hall.1
    . exact hs.held name hname
  | report | finish => exact hs.writeReport _
  | abort => exact ⟨by simp, by simp, hs.written⟩
  | _ => exact hs.of_held_written rfl hs.queue rfl rfl

end Unmixed

/--
Whether an action submits a sample that is left out.
-/
def passesOver (s : Sink) : SinkAction → Bool
  | .submit _ x => s.ignores x.name
  | _ => false

theorem step_of_passesOver (s : Sink) (a : SinkAction) (ha : s.passesOver a = true) :
    s.step a = (s, []) := by
  cases a with
  | submit handle x =>
    have hx : s.ignores x.name = true := ha
    simp [step, submit, enqueue, hx]
  | _ => simp [passesOver] at ha

theorem passesOver_congr {s origin : Sink} (h : s.settings = origin.settings) (a : SinkAction) :
    s.passesOver a = origin.passesOver a := by
  cases a with
  | submit handle x => exact ignores_congr h x.name
  | _ => rfl

/--
Samples that are left out make no difference to anything.
-/
theorem run_filter_passesOver (s : Sink) (as : List SinkAction) :
    s.run (as.filter fun a => !s.passesOver a) = s.run as := by
  apply Run.foldl_filter_of_idle _ s.passesOver (fun p => p.1.settings = s.settings)
  . intro p a hp
    exact (p.1.step_effect a).evolves.settings.trans hp
  . rintro ⟨t, es⟩ a hp ha
    have hidle := t.step_of_passesOver a ((passesOver_congr hp a).trans ha)
    simp [hidle]
  . rfl

variable {settings : Settings} {epoch untilMinute : Span} {timer : Timer} {s : Sink}

theorem eq_of_spawn (hs : Sink.spawn settings epoch untilMinute timer = .ok s) :
    s = {
      settings, handles := [true], queue := [], dropped := 0, worker := .fresh, held := .empty
      written := [], clock := .zero, epoch, untilMinute, timer } := by
  unfold spawn at hs
  split at hs
  . simp at hs
  . exact (Except.ok.inj hs).symm

theorem settings_of_spawn (hs : Sink.spawn settings epoch untilMinute timer = .ok s) :
    s.settings = settings := by
  rw [eq_of_spawn hs]

theorem Balanced.of_spawn (hs : Sink.spawn settings epoch untilMinute timer = .ok s) :
    Balanced s (s.heeded []) := by
  rw [eq_of_spawn hs]
  exact ⟨fun _ _ => rfl, by simp⟩

theorem Unmixed.of_spawn (hs : Sink.spawn settings epoch untilMinute timer = .ok s) :
    Unmixed s := by
  rw [eq_of_spawn hs]
  exact ⟨by simp, by simp, [], rfl, by simp⟩

/--
However samples are submitted, time passes and the worker takes its turns, a sample that is not left
out is dropped, told of by a line of a report, queued or held, unless the worker is stopped by
force. When the worker has ended by itself, nothing is queued or held. Samples that are left out are
nowhere and make no difference.
-/
theorem submitted_samples_accounted_for (settings : Settings) (epoch untilMinute : Span)
    (timer : Timer) (s : Sink) (hs : Sink.spawn settings epoch untilMinute timer = .ok s)
    (as : List SinkAction) :
    let t := (s.run as).1
    let n := s.heeded (s.submitted as)
    (t.worker ≠ .crashed → t.worker ≠ .aborted →
      n = t.dropped + (t.written.map Line.count).sum + t.queue.length + t.held.held) ∧
    (∀ x ∈ t.queue, s.ignores x.name = false) ∧
    (∀ name ∈ t.held.byName.keys, s.ignores name = false) ∧
    (∃ reports, t.written = report settings.level settings.server reports ∧
      ∀ e ∈ reports, s.ignores e.1 = false) ∧
    s.run (as.filter fun a => !s.passesOver a) = s.run as ∧
    (t.worker = .finished →
      t.queue = [] ∧ t.held.isEmpty = true ∧ n = t.dropped + (t.written.map Line.count).sum) := by
  intro t n
  have hrun : t.settings = s.settings ∧ Unmixed t ∧ Balanced t n := by
    refine run_invariant
      (fun t xs => t.settings = s.settings ∧ Unmixed t ∧ Balanced t (s.heeded xs)) ?_ as s ?_
    . rintro t xs a next offers he ⟨hsettings, hunmixed, hbalanced⟩
      refine ⟨he.evolves.settings.trans hsettings, hunmixed.step he, ?_⟩
      rw [heeded_append, ← heeded_congr hsettings offers]
      exact hbalanced.step he
    . exact ⟨rfl, .of_spawn hs, .of_spawn hs⟩
  obtain ⟨hsettings, hunmixed, hbalanced⟩ := hrun
  have hsame := ignores_congr hsettings
  refine ⟨hbalanced.total, ?_, ?_, ?_, s.run_filter_passesOver as, ?_⟩
  . intro x hx
    rw [← hsame]
    exact hunmixed.queue x hx
  . intro name hname
    rw [← hsame]
    exact hunmixed.held name hname
  . obtain ⟨reports, heq, hnames⟩ := hunmixed.written
    refine ⟨reports, ?_, fun e he => (hsame e.1).symm.trans (hnames e he)⟩
    rw [heq, hsettings, settings_of_spawn hs]
  . intro hfinished
    obtain ⟨hqueue, hheld⟩ := hbalanced.emptied hfinished
    have htotal := hbalanced.total (by simp [hfinished]) (by simp [hfinished])
    rw [hqueue, hheld] at htotal
    exact ⟨hqueue, by rw [hheld, Aggregator.isEmpty_empty], htotal⟩

/--
A sink with room for one sample that leaves some names out.
-/
def tight : Settings :=
  { Settings.standard "shop" with capacity := 1, alignToMinute := false, ignored := ["tmp."] }

/--
One sample finds the queue full and another one is left out. Then the only handle is dropped.
-/
def samplings : List SinkAction :=
  [.begin, .submit 0 ⟨"a", 1⟩, .submit 0 ⟨"b", 2⟩, .submit 0 ⟨"tmp.x", 3⟩, .receive,
   .submit 0 ⟨"a", 4⟩, .drop 0, .receive, .close]

theorem samplings_accounted_for :
    ∃ s, Sink.spawn tight .zero .zero (.delaying .zero) = .ok s ∧ (s.submitted samplings).length = 4 ∧
      (s.run samplings).1.worker = .finished ∧ (s.run samplings).1.queue = [] ∧
      3 = (s.run samplings).1.dropped + ((s.run samplings).1.written.map Line.count).sum := by
  refine ⟨_, rfl, by decide +kernel, by decide +kernel, ?_⟩
  obtain ⟨_, _, _, _, _, hend⟩ :=
    submitted_samples_accounted_for tight .zero .zero (.delaying .zero) _ rfl samplings
  obtain ⟨hqueue, _, htotal⟩ := hend (by decide +kernel)
  refine ⟨hqueue, Eq.trans ?_ htotal⟩
  decide +kernel

end Upkeep.Metrics.Sink
