import Mathlib.Data.List.Induction
import Upkeep.Proofs.Client.Counters
import Upkeep.Proofs.Client.Progress

/-!
This module contains what callers see of a buffer. Where replaced clients are closed, when they are
closed and what comes of that does not show: two runs in which callers do the same look the same to
them.
-/

namespace Upkeep.Client

open Config

/--
Whether an action is one of callers or of those that edit the table. The others are about what goes
on behind the scenes.
-/
def Action.isCallers : Action → Bool
  | .edit _ | .begin .. | .proceed _ | .construct .. => true
  | _ => false

/--
A call without what it does about the previous client.
-/
def Call.shown : Call → Call
  | .displaced name client previous _ => .displaced name client previous .zero
  | .closing _ client _ => .done (.client client)
  | c => c

theorem Call.shown_shown (c : Call) : c.shown.shown = c.shown := by
  cases c <;> rfl

namespace Buffer

/--
A buffer without teardowns, drains, closers and time, in which replaced clients are closed later.
-/
def shown (b : Buffer) : Buffer :=
  { start .around with
    table := b.table
    records := b.records
    calls := b.calls.map Call.shown
    tallies := ⟨b.tallies.updates, 0, 0⟩
    nextId := b.nextId }

theorem shown_eq {b d : Buffer} (htable : b.table = d.table) (hrecords : b.records = d.records)
    (hcalls : b.calls.map Call.shown = d.calls.map Call.shown)
    (hupdates : b.tallies.updates = d.tallies.updates) (hid : b.nextId = d.nextId) :
    b.shown = d.shown := by
  rw [shown, shown, htable, hrecords, hcalls, hupdates, hid]

theorem shown_shown (b : Buffer) : b.shown.shown = b.shown := by
  refine shown_eq rfl rfl ?_ rfl rfl
  rw [shown, List.map_map]
  exact List.map_congr_left fun c _ => c.shown_shown

theorem getElem?_shown (b : Buffer) (i : Nat) :
    b.shown.calls[i]? = b.calls[i]?.map Call.shown :=
  List.getElem?_map

/--
What callers do not do does not show.
-/
theorem shown_of_hidden (b : Buffer) (a : Action) (ha : a.isCallers = false) :
    (b.step a).1.shown = b.shown := by
  have he := b.step_effect a
  generalize (b.step a).1 = next at he ⊢
  generalize b.marks a = ms at he
  cases he with
  | endCloseNow i name client previous o hc =>
    -- the call has looked over to its callers since the closer was started
    have hshown : (b.calls.map Call.shown)[i]? = some (.done (.client client)) := by
      simp [hc, Call.shown]
    refine shown_eq rfl rfl ?_ (b.tallies.updates_ended o) rfl
    rw [List.map_set]
    exact set_eq_self hshown
  | endCloseLater i t o => exact shown_eq rfl rfl rfl (b.tallies.updates_ended o) rfl
  | edit | begin | resolve | serve | refuse | reuse | attempt | build | fail | place | displace
  | closeAtOnce | schedule => simp [Action.isCallers] at ha
  | _ => rfl

theorem shown_of_set {b next d : Buffer} {i : Nat} {c c' : Call}
    (hnext : next.calls = b.calls.set i c) (hd : d.calls = b.shown.calls.set i c')
    (hc : c.shown = c'.shown) (htable : next.table = d.table) (hrecords : next.records = d.records)
    (hupdates : next.tallies.updates = d.tallies.updates) (hid : next.nextId = d.nextId) :
    next.shown = d.shown := by
  have hcalls : b.shown.calls.map Call.shown = b.calls.map Call.shown :=
    congrArg calls b.shown_shown
  refine shown_eq htable hrecords ?_ hupdates hid
  rw [hnext, hd, List.map_set, List.map_set, hc, hcalls]

theorem shown_proceed_of_resolved (b : Buffer) (i : Nat) (name options : String)
    (wanted : Option Target) (hc : b.calls[i]? = some (.resolved name options wanted)) :
    (b.proceed i).1.shown = (b.shown.proceed i).1.shown := by
  have hs : b.shown.calls[i]? = some (.resolved name options wanted) := by
    rw [getElem?_shown, hc]
    rfl
  have hrecord : b.shown.record? name = b.record? name := rfl
  cases wanted with
  | none =>
    simp only [proceed, hc, hs, serve, hrecord]
    cases b.record? name <;> exact shown_of_set rfl rfl rfl rfl rfl rfl rfl
  | some target =>
    simp only [proceed, hc, hs, compare, hrecord]
    cases (b.record? name).filter (·.target = target.address) <;>
      exact shown_of_set rfl rfl rfl rfl rfl rfl rfl

theorem shown_proceed (b : Buffer) (i : Nat) :
    (b.proceed i).1.shown = (b.shown.proceed i).1.shown := by
  cases hc : b.calls[i]? with
  | none =>
    have hs : b.shown.calls[i]? = none := by rw [getElem?_shown, hc, Option.map_none]
    simp only [proceed, hc, hs, shown_shown]
  | some c =>
    have hs : b.shown.calls[i]? = some c.shown := by rw [getElem?_shown, hc, Option.map_some]
    cases c with
    | begun name options =>
      simp only [proceed, hc, hs, Call.shown]
      exact shown_of_set rfl rfl rfl rfl rfl rfl rfl
    | resolved name options wanted => exact b.shown_proceed_of_resolved i name options wanted hc
    | built name target client =>
      have hrecord : b.shown.record? name = b.record? name := rfl
      simp only [proceed, hc, hs, Call.shown, swap, hrecord]
      cases b.record? name <;> exact shown_of_set rfl rfl rfl rfl rfl rfl rfl
    | displaced name client previous since =>
      -- the copy gives the client at once, and the original when the closer has come to its end
      have hlater : b.shown.runtime ≠ .absent := by simp [shown, start]
      simp only [proceed, hc, hs, Call.shown, schedule_of_ne_absent _ _ _ _ _ _ hlater]
      by_cases ha : b.runtime = .absent
      . simp only [schedule, ha]
        exact shown_of_set rfl rfl rfl rfl rfl rfl rfl
      . rw [schedule_of_ne_absent _ _ _ _ _ _ ha]
        exact shown_of_set rfl rfl rfl rfl rfl rfl rfl
    | constructing | closing | done => simp only [proceed, hc, hs, Call.shown, shown_shown]

theorem shown_construct (b : Buffer) (i : Nat) (o : BuildOutcome) :
    (b.construct i o).1.shown = (b.shown.construct i o).1.shown := by
  cases hc : b.calls[i]? with
  | none =>
    have hs : b.shown.calls[i]? = none := by rw [getElem?_shown, hc, Option.map_none]
    simp only [construct, hc, hs, shown_shown]
  | some c =>
    have hs : b.shown.calls[i]? = some c.shown := by rw [getElem?_shown, hc, Option.map_some]
    cases c with
    | constructing name target client =>
      simp only [construct, hc, hs, Call.shown]
      cases o <;> exact shown_of_set rfl rfl rfl rfl rfl rfl rfl
    | begun | resolved | built | displaced | closing | done =>
      simp only [construct, hc, hs, Call.shown, shown_shown]

/--
What callers do shows in the same way, whatever goes on behind the scenes.
-/
theorem shown_of_callers (b : Buffer) (a : Action) (ha : a.isCallers = true) :
    (b.step a).1.shown = (b.shown.step a).1.shown := by
  cases a with
  | edit table => exact shown_eq rfl rfl (congrArg calls b.shown_shown).symm rfl rfl
  | begin name options =>
    refine shown_eq rfl rfl ?_ rfl rfl
    have hcalls : b.shown.calls.map Call.shown = b.calls.map Call.shown :=
      congrArg calls b.shown_shown
    simp only [step, List.map_append, hcalls]
  | proceed i => exact b.shown_proceed i
  | construct i o => exact b.shown_construct i o
  | closeNow | turn | closeLater | prune | drain | redrain | abandon | pass | shutdown | enter
  | leave => simp [Action.isCallers] at ha

/--
Runs in which callers do the same look the same to them.
-/
theorem shown_of_run {as bs : List Action}
    (hsame : as.filter Action.isCallers = bs.filter Action.isCallers) {b d : Buffer}
    (hbd : b.shown = d.shown) : (b.run as).shown = (d.run bs).shown := by
  refine Run.view_foldl_of_filter_eq (fun (b : Buffer) a => (b.step a).1) shown Action.isCallers
    shown_of_hidden ?_ hsame hbd
  intro b d a ha hbd
  rw [shown_of_callers b a ha, shown_of_callers d a ha, hbd]

theorem currentTarget?_shown (b : Buffer) (name : String) :
    b.shown.currentTarget? name = b.currentTarget? name := rfl

/--
A call that is over in one of two runs that look the same is over in the other one, or waits for a
closer there.
-/
theorem done_of_shown {b d : Buffer} (hbd : b.shown = d.shown) {i : Nat} {r : Result}
    (hc : b.calls[i]? = some (.done r)) :
    d.calls[i]? = some (.done r) ∨
    ∃ name client previous, d.calls[i]? = some (.closing name client previous) ∧
      r = .client client := by
  have hs : d.calls[i]?.map Call.shown = some (.done r) := by
    rw [← getElem?_shown, ← hbd, getElem?_shown, hc]
    rfl
  obtain ⟨c, hd, hshown⟩ := Option.map_eq_some_iff.1 hs
  cases c with
  | done r' => exact .inl (hd.trans (congrArg some hshown))
  | closing name client previous =>
    exact .inr ⟨name, client, previous, hd, (Call.done.inj hshown).symm⟩
  | begun | resolved | constructing | built | displaced => simp [Call.shown] at hshown

/--
When the closer that a call waits for comes to its end, its guard has let no panic out, and the call
gives its client.
-/
theorem closeNow_guarded (b : Buffer) {i : Nat} {name : String} {client : Connection}
    {previous : Record Connection} (hc : b.calls[i]? = some (.closing name client previous))
    (o : CloseOutcome) :
    let e : Ending := ⟨name, name, previous, o⟩
    (∃ v, e.guarded.result = .ok v) ∧
    b.step (.closeNow i o) =
      ({ b.setCall i (.done (.client client)) with
          tallies := e.counted.foldl Tallies.raise b.tallies }, e.emitted) := by
  intro e
  obtain ⟨v, hv, _⟩ := e.result_guarded
  refine ⟨⟨v, hv⟩, ?_⟩
  have hstep : b.step (.closeNow i o) =
      (b.setCall i (.done (.client client))).closed name name previous o := by
    simp only [step, closeNow, hc]
  rw [hstep]
  exact closed_eq_guarded _ e

/--
A call that has not given a client was refused, or its constructor has failed.
-/
theorem blame_of_run (runtime : Runtime) (as : List Action) {i : Nat} {r : Result}
    (hc : ((Buffer.start runtime).run as).calls[i]? = some (.done r))
    (hr : ∀ client, r ≠ .client client) :
    (∃ name, r = .error (.notConfigured name)) ∨
    (∃ name cause, .construct i (.refused cause) ∈ as ∧
      r = .error (.constructionFailed name cause)) ∨
    ∃ p, .construct i (.panicked p) ∈ as ∧ r = .panicked p := by
  induction as using List.reverseRecOn with
  | nil => simp [Buffer.start, run] at hc
  | append_singleton as a ih =>
    rw [run_concat] at hc
    rcases step_ends _ a hc with hold | hends
    . rcases ih hold with hrefused | ⟨name, cause, hm, heq⟩ | ⟨p, hm, heq⟩
      . exact .inl hrefused
      . exact .inr (.inl ⟨name, cause, List.mem_append_left _ hm, heq⟩)
      . exact .inr (.inr ⟨p, List.mem_append_left _ hm, heq⟩)
    . cases hends with
      | client _ client => exact absurd rfl (hr client)
      | refuse name => exact .inl ⟨name, rfl⟩
      | fail name cause => exact .inr (.inl ⟨name, cause, by simp, rfl⟩)
      | panic p => exact .inr (.inr ⟨p, by simp, rfl⟩)

/--
Two runs in which callers do the same and constructors end in the same way, but replaced clients are
closed wherever and whenever, and their closers end in any way. Records, their number and the number
of constructors that were run are the same in both. A call that is over in one of them has the same
result in the other one, or waits there for a closer, and has the same result as soon as that has
come to its end, whatever that is. A call that has not given a client was refused, or its
constructor has failed.
-/
theorem teardown_does_not_show (runtime other : Runtime) (as bs : List Action)
    (hsame : as.filter Action.isCallers = bs.filter Action.isCallers) :
    let b := (Buffer.start runtime).run as
    let d := (Buffer.start other).run bs
    (∀ name, b.currentTarget? name = d.currentTarget? name) ∧
    b.size = d.size ∧
    b.tallies.updates = d.tallies.updates ∧
    b.calls.length = d.calls.length ∧
    (∀ (i : Nat) r, b.calls[i]? = some (.done r) →
      d.calls[i]? = some (.done r) ∨
      ∃ name client previous, d.calls[i]? = some (.closing name client previous) ∧
        r = .client client ∧
        ∀ o, let e : Ending := ⟨name, name, previous, o⟩
          (∃ v, e.guarded.result = .ok v) ∧
          d.step (.closeNow i o) =
            ({ d.setCall i (.done r) with tallies := e.counted.foldl Tallies.raise d.tallies },
              e.emitted)) ∧
    (∀ (i : Nat) r, b.calls[i]? = some (.done r) → (∀ client, r ≠ .client client) →
      (∃ name, r = .error (.notConfigured name)) ∨
      (∃ name cause, .construct i (.refused cause) ∈ as ∧
        r = .error (.constructionFailed name cause)) ∨
      ∃ p, .construct i (.panicked p) ∈ as ∧ r = .panicked p) := by
  intro b d
  have hbd : b.shown = d.shown := shown_of_run hsame rfl
  refine ⟨?_, ?_, ?_, ?_, ?_, fun i r hc hr => blame_of_run runtime as hc hr⟩
  . intro name
    rw [← b.currentTarget?_shown, hbd, currentTarget?_shown]
  . have hsize := congrArg size hbd
    exact hsize
  . have hupdates := congrArg (·.tallies.updates) hbd
    exact hupdates
  . have hlength := congrArg (·.calls.length) hbd
    simpa [shown] using hlength
  . intro i r hc
    rcases done_of_shown hbd hc with hd | ⟨name, client, previous, hd, rfl⟩
    . exact .inl hd
    . exact .inr ⟨name, client, previous, hd, rfl, d.closeNow_guarded hd⟩

/--
A closer that panics later in the one run, and is at work at once in the other.
-/
theorem panicking_closer_does_not_show :
    let callers := movedOn ++ callAfterMove
    let b := (Buffer.start .around).run
      (callers ++ [.turn 0, .pass (.ofSeconds 1), .turn 0, .closeLater 0 (.panicked default)])
    let d := (Buffer.start .absent).run callers
    b.tallies.failed = 1 ∧ d.closings.length = 1 ∧ b.currentTarget? "db" = d.currentTarget? "db" ∧
    ∃ name previous, d.calls[1]? = some (.closing name ⟨1, "db", "b", ""⟩ previous) ∧
      ∀ o, let e : Ending := ⟨name, name, previous, o⟩
        (∃ v, e.guarded.result = .ok v) ∧
        (d.step (.closeNow 1 o)).1 =
          { d.setCall 1 (.done (.client ⟨1, "db", "b", ""⟩)) with
            tallies := e.counted.foldl Tallies.raise d.tallies } := by
  intro callers b d
  obtain ⟨htarget, _, _, _, hcalls, _⟩ := teardown_does_not_show .around .absent
    (callers ++ [.turn 0, .pass (.ofSeconds 1), .turn 0, .closeLater 0 (.panicked default)]) callers
    rfl
  refine ⟨by decide +kernel, by decide +kernel, htarget "db", ?_⟩
  rcases hcalls 1 (.client ⟨1, "db", "b", ""⟩) (by decide +kernel) with
    hdone | ⟨name, client, previous, hd, hclient, hends⟩
  . exact absurd hdone (by decide +kernel)
  . cases hclient
    exact ⟨name, previous, hd, fun o => ⟨(hends o).1, congrArg Prod.fst (hends o).2⟩⟩

end Buffer

end Upkeep.Client
