import Upkeep.Proofs.Metrics.Schedule

/-!
This module contains what can go wrong with a sink: its queue may be too large to be made, its first
report may be due beyond the end of the clock, and so may the one that follows a late report.
Nothing else makes it crash, and what is submitted goes on being reported.
-/

namespace Upkeep.Metrics.Sink

variable {s : Sink} {settings : Settings} {epoch untilMinute : Span} {timer : Timer}

theorem untilFullMinute_le (now : Int) : untilFullMinute now ≤ Span.ofSeconds 60 := by
  simp only [Span.le_def, untilFullMinute, Span.ofMillis, Span.ofSeconds]
  omega

/--
A queue cannot be made just if it is too large.
-/
theorem spawn_eq_error (settings : Settings) (epoch untilMinute : Span) (timer : Timer)
    (f : CapacityFault) :
    spawn settings epoch untilMinute timer = .error f ↔
      f = .tooLarge ∧ CapacityFault.largest < settings.capacity := by
  have hroom : max settings.capacity 1 ≠ 0 := by omega
  have hlarge : CapacityFault.largest < max settings.capacity 1 ↔
      CapacityFault.largest < settings.capacity := by
    have hone : ¬CapacityFault.largest < 1 := by decide
    omega
  simp only [spawn, CapacityFault.of?, if_neg hroom, hlarge]
  split <;> simp_all [eq_comm]

def Crashes (s : Sink) : SinkAction → Prop
  | .begin => s.worker = .fresh ∧ inClock (s.epoch + s.clock + s.firstDelay) = false
  | .flush => ∃ due, s.worker = .running due ∧ due ≤ s.clock ∧ s.nextDue? due = none
  | _ => False

theorem crashed_step (s : Sink) (a : SinkAction) :
    (s.step a).1.worker = .crashed ↔ s.worker = .crashed ∨ s.Crashes a := by
  constructor
  . intro hcrashed
    have heffect := s.step_effect a
    generalize (s.step a).1 = next, s.offered a = offers at hcrashed heffect
    cases heffect with
    | crash hw hclock => exact .inr ⟨hw, hclock⟩
    | fail due hw hdue hnext => exact .inr ⟨due, hw, hdue, hnext⟩
    | start | report | finish | abort => cases hcrashed
    | idle | ignore | queue | lose | clone | drop | take | pass => exact .inl hcrashed
  . rintro (hcrashed | hnow)
    . have heffect := s.step_effect a
      generalize (s.step a).1 = next, s.offered a = offers at heffect
      cases heffect with
      | start hw | crash hw | take _ _ _ hw | report _ _ hw | fail _ hw | finish _ hw =>
        cases hcrashed.symm.trans hw
      | abort hopen => simp [isOpen, hcrashed] at hopen
      | idle | ignore | queue | lose | clone | drop | pass => exact hcrashed
    . cases a with
      | begin => simp [step, begin, hnow.1, hnow.2, crash]
      | flush =>
        obtain ⟨due, hw, hdue, hnext⟩ := hnow
        simp [step, flush, hw, hdue, hnext, crash]
      | submit | clone | drop | receive | close | abort | pass => exact hnow.elim

theorem crashed_run (s : Sink) (as : List SinkAction) :
    (s.run as).1.worker = .crashed ↔
      s.worker = .crashed ∨ ∃ pre a post, as = pre ++ a :: post ∧ (s.run pre).1.Crashes a := by
  induction as generalizing s with
  | nil => simp [run]
  | cons a as ih =>
    rw [run_cons_fst, ih, crashed_step]
    constructor
    . rintro ((hcrashed | hnow) | ⟨pre, b, post, rfl, hlater⟩)
      . exact .inl hcrashed
      . exact .inr ⟨[], a, as, rfl, hnow⟩
      . exact .inr ⟨a :: pre, b, post, rfl, by rwa [run_cons_fst]⟩
    . rintro (hcrashed | ⟨_ | ⟨c, pre⟩, b, post, hsplit, hcrash⟩)
      . exact .inl (.inl hcrashed)
      . obtain ⟨rfl, -⟩ := List.cons.inj hsplit
        exact .inl (.inr hcrash)
      . obtain ⟨rfl, rfl⟩ := List.cons.inj hsplit
        rw [run_cons_fst] at hcrash
        exact .inr ⟨pre, b, post, rfl, hcrash⟩

/--
A turn that has to set a time beyond the end of the clock: at the first one it is that of the first
report, at a late report that of the next one.
-/
def ReachesBeyondClock (s : Sink) : SinkAction → Prop
  | .begin => s.worker = .fresh ∧ inClock (s.epoch + s.clock + s.firstDelay) = false
  | .flush => ∃ due, s.worker = .running due ∧ Timer.isPrompt due s.clock = false ∧
      inClock (s.epoch + s.clock + s.settings.period) = false
  | _ => False

/--
While the clock has room for the far future, only late reports are not followed by another one.
-/
theorem nextDue?_eq_none (htimer : s.timer.Delays s.epoch)
    (hroom : inClock (s.epoch + s.clock + Timer.farFuture) = true) (due : Span) :
    s.nextDue? due = none ↔ Timer.isPrompt due s.clock = false ∧
      inClock (s.epoch + s.clock + s.settings.period) = false := by
  rw [nextDue?]
  cases hprompt : Timer.isPrompt due s.clock with
  | true =>
    obtain ⟨next, hnext⟩ := htimer.prompt due s.clock s.settings.period hprompt hroom
    simp [hnext]
  | false => simp [htimer.late due s.clock s.settings.period hprompt]

theorem crashes_iff (htimer : s.timer.Delays s.epoch)
    (hroom : inClock (s.epoch + s.clock + Timer.farFuture) = true) (a : SinkAction) :
    s.Crashes a ↔ s.ReachesBeyondClock a := by
  cases a with
  | flush =>
    simp only [Crashes, ReachesBeyondClock, nextDue?_eq_none htimer hroom]
    constructor
    . rintro ⟨due, hw, -, hlate⟩
      exact ⟨due, hw, hlate⟩
    . rintro ⟨due, hw, hlate, hnext⟩
      refine ⟨due, hw, ?_, hlate, hnext⟩
      -- a report that is late is due
      have hnot : ¬ s.clock ≤ due := fun hle =>
        Bool.false_ne_true (hlate.symm.trans (Timer.isPrompt_of_le hle))
      rw [Span.le_def] at hnot ⊢
      omega
  | _ => rfl

/--
The turns of a worker that waits until its next report is due, and writes it.
-/
def untilReport (s : Sink) (due : Span) : List SinkAction :=
  (s.queue.map fun _ => .receive) ++ [.pass ⟨due.nanos - s.clock.nanos⟩, .flush]

/--
A sink whose worker holds all that was queued and has waited until its next report is due.
-/
def untilDue (s : Sink) (due : Span) : Sink :=
  { s with
    queue := []
    held := s.queue.foldl (fun held x => held.record x.name x.value) s.held
    clock := s.clock + ⟨due.nanos - s.clock.nanos⟩ }

theorem run_untilReport {due : Span} (hw : s.worker = .running due) :
    (s.run (s.untilReport due)).1 = (s.untilDue due).flush := by
  rw [untilReport, run_append_fst, run_receive_eq hw]
  rfl

theorem clock_flush (s : Sink) : s.flush.clock = s.clock := by
  have heffect := s.flush_effect
  generalize s.flush = next at heffect ⊢
  cases heffect <;> rfl

/--
A worker that runs goes on to report all that it was given, unless it is so late with its report that
the next one would be due beyond the clock.
-/
theorem reports_on (htimer : s.timer.Delays s.epoch) {due : Span} (hw : s.worker = .running due) :
    let last := (s.run (s.untilReport due)).1
    inClock (s.epoch + last.clock + Timer.farFuture) = true →
    Timer.isPrompt due last.clock = true ∨
      inClock (s.epoch + last.clock + s.settings.period) = true →
    last.queue = [] ∧ last.held = .empty ∧
      (∃ later, last.worker = .running later ∧
        (Timer.isPrompt due last.clock = false → later = last.clock + s.settings.period)) ∧
      last.written = s.written ++ report s.settings.level s.settings.server
        (s.queue.foldl (fun held x => held.record x.name x.value) s.held).summaries := by
  intro last
  have hlast : last = (s.untilDue due).flush := run_untilReport hw
  have hclock : last.clock = (s.untilDue due).clock := by rw [hlast, clock_flush]
  rw [hclock]
  intro hroom hnot
  have hdue : due ≤ (s.untilDue due).clock := by
    simp only [untilDue, Span.le_def, Span.nanos_add]
    omega
  cases hnext : (s.untilDue due).nextDue? due with
  | none =>
    obtain ⟨hlate, hbeyond⟩ := (nextDue?_eq_none (s := s.untilDue due) htimer hroom due).1 hnext
    rcases hnot with hprompt | hclock
    . cases hlate.symm.trans hprompt
    . cases hbeyond.symm.trans hclock
  | some later =>
    rw [hlast, flush_of_due (s := s.untilDue due) hw hdue hnext]
    refine ⟨rfl, rfl, ⟨later, rfl, ?_⟩, rfl⟩
    intro hlate
    have heq := (htimer.late due _ s.settings.period hlate).symm.trans hnext
    split at heq
    . exact (Option.some.inj heq).symm
    . cases heq

/--
A sink is spawned unless its queue is too large, whatever the clocks show. As long as the clock has
room for the far future, its worker crashes just if the first report would be due beyond the end of
the clock, which comes within a minute if it is aligned, or if a report is late and the next one
would be due beyond the end of the clock. A worker that runs goes on to report all that it was given
unless it crashes in that way.
-/
theorem crashes_iff_beyond_clock (settings : Settings) (epoch : Span) (now : Int) (timer : Timer)
    (htimer : timer.Delays epoch) :
    (∀ f, spawn settings epoch (untilFullMinute now) timer = .error f ↔
      f = .tooLarge ∧ CapacityFault.largest < settings.capacity) ∧
    ∀ s, spawn settings epoch (untilFullMinute now) timer = .ok s →
      s.firstDelay = (if settings.alignToMinute then untilFullMinute now else settings.period) ∧
      (settings.alignToMinute = true → s.firstDelay ≤ Span.ofSeconds 60) ∧
      ∀ as,
        let t := (s.run as).1
        (inClock (epoch + t.clock + Timer.farFuture) = true →
          (t.worker = .crashed ↔
            ∃ pre a post, as = pre ++ a :: post ∧ (s.run pre).1.ReachesBeyondClock a)) ∧
        ∀ due, t.worker = .running due →
          let last := (t.run (t.untilReport due)).1
          inClock (epoch + last.clock + Timer.farFuture) = true →
          Timer.isPrompt due last.clock = true ∨
            inClock (epoch + last.clock + settings.period) = true →
          last.queue = [] ∧ last.held = .empty ∧
            (∃ later, last.worker = .running later ∧
              (Timer.isPrompt due last.clock = false → later = last.clock + settings.period)) ∧
            last.written = t.written ++ report settings.level settings.server
              (t.queue.foldl (fun held x => held.record x.name x.value) t.held).summaries := by
  refine ⟨spawn_eq_error settings epoch (untilFullMinute now) timer, ?_⟩
  intro s hs
  have hfirst : s.firstDelay =
      (if settings.alignToMinute then untilFullMinute now else settings.period) := by
    rw [eq_of_spawn hs, firstDelay]
  refine ⟨hfirst, ?_, ?_⟩
  . intro halign
    rw [hfirst, if_pos halign]
    exact untilFullMinute_le now
  intro as t
  have hsame : ∀ bs, (s.run bs).1.epoch = epoch ∧ (s.run bs).1.settings = settings ∧
      (s.run bs).1.timer = timer := by
    intro bs
    have hevolves := s.evolves_run bs
    rw [eq_of_spawn hs] at hevolves ⊢
    exact ⟨hevolves.epoch, hevolves.settings, hevolves.timer⟩
  constructor
  . intro hroom
    have hfresh : s.worker ≠ .crashed := by simp [eq_of_spawn hs]
    rw [crashed_run, or_iff_right hfresh]
    refine exists_congr fun pre => exists_congr fun a => exists_congr fun post => ?_
    refine and_congr_right fun hsplit => ?_
    obtain ⟨hepoch, -, htimer'⟩ := hsame pre
    refine crashes_iff (by rwa [hepoch, htimer']) ?_ a
    -- the clock only goes on: what it has room for at the end it had room for before
    have hpassed : (s.run pre).1.clock ≤ t.clock := by
      simp only [t]
      rw [hsplit, run_append_fst]
      exact ((s.run pre).1.evolves_run (a :: post)).clock
    rw [hepoch]
    exact inClock_of_earlier hpassed hroom
  . intro due hw
    obtain ⟨hepoch, hsettings, htimer'⟩ := hsame as
    have hreport := reports_on (by rwa [hepoch, htimer']) hw
    rwa [hepoch, hsettings] at hreport

theorem standard_settings_report_on :
    ∃ s due,
      Sink.spawn (Settings.standard "shop") (.ofSeconds 1) (untilFullMinute 0)
        (.delaying (.ofSeconds 1)) = .ok s ∧
      let t := (s.run [.begin, .submit 0 ⟨"a", 1⟩]).1
      let last := (t.run (t.untilReport due)).1
      t.worker = .running due ∧ last.worker ≠ .crashed ∧ last.queue = [] ∧ last.held = .empty := by
  refine ⟨_, .ofSeconds 60, rfl, ?_⟩
  intro t last
  obtain ⟨-, hspawned⟩ := crashes_iff_beyond_clock (Settings.standard "shop") (.ofSeconds 1) 0
    (.delaying (.ofSeconds 1)) (Timer.delays_delaying _)
  obtain ⟨-, -, hrun⟩ := hspawned _ rfl
  have hw : t.worker = .running (.ofSeconds 60) := by decide +kernel
  obtain ⟨hqueue, hheld, ⟨later, hlater, -⟩, -⟩ :=
    (hrun _).2 _ hw (by decide +kernel) (.inl (by decide +kernel))
  exact ⟨hw, by rw [hlater]; simp, hqueue, hheld⟩

/--
Settings that are accepted, but ask for a queue that is too large by one, and settings that are
accepted, but whose first report is beyond the end of a clock that shows one second. If reports are
aligned, a first report that is late is followed by one beyond the end of that clock.
-/
theorem accepted_settings_crash :
    (∃ settings, Settings.read? "shop" "queue_capacity = 2305843009213693952" = some settings ∧
      spawn settings (.ofSeconds 1) (untilFullMinute 0) (.delaying (.ofSeconds 1)) =
        .error .tooLarge) ∧
    (∃ settings s, Settings.read? "shop"
        "align_to_minute = false\nflush_interval_secs = 9223372036854775807" = some settings ∧
      spawn settings (.ofSeconds 1) (untilFullMinute 0) (.delaying (.ofSeconds 1)) = .ok s ∧
      (s.run [.begin]).1.worker = .crashed) ∧
    ∃ settings s, Settings.read? "shop" "flush_interval_secs = 9223372036854775807" =
        some settings ∧
      spawn settings (.ofSeconds 1) (untilFullMinute 0) (.delaying (.ofSeconds 1)) = .ok s ∧
      (s.run [.begin, .pass (.ofSeconds 61), .flush]).1.worker = .crashed := by
  refine ⟨?_, ?_, ?_⟩
  . let settings := { Settings.standard "shop" with capacity := 2305843009213693952 }
    have hread : Settings.read? "shop" "queue_capacity = 2305843009213693952" = some settings := by
      decide +kernel
    exact ⟨settings, hread, rfl⟩
  . let settings :=
      { Settings.standard "shop" with alignToMinute := false, flushSeconds := 9223372036854775807 }
    have hread : Settings.read? "shop"
        "align_to_minute = false\nflush_interval_secs = 9223372036854775807" = some settings := by
      decide +kernel
    exact ⟨settings, _, hread, rfl, by decide +kernel⟩
  . let settings := { Settings.standard "shop" with flushSeconds := 9223372036854775807 }
    have hread : Settings.read? "shop" "flush_interval_secs = 9223372036854775807" =
        some settings := by
      decide +kernel
    exact ⟨settings, _, hread, rfl, by decide +kernel⟩

end Upkeep.Metrics.Sink
