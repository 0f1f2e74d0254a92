import Upkeep.Proofs.Config.Loops

/-!
This module contains what can happen to a dispatcher. Each step has one of a small number of
effects, which say what held before it, what the dispatcher is after it, and what can be noticed of
it, so that the proofs about dispatchers go by cases on effects and do not open the step function
again.
-/

namespace Upkeep.Config

/--
What the users of a dispatcher notice. A start gets its turn and finds the dispatcher running or
not. A subscription is made, before the end or late, looks for a value, or is given up. A value is
handed to all subscriptions, or all of them end.
-/
inductive Occurrence (α : Type u) where
  | turn (start : Nat) (running : Bool)
  | subscribed (slot : Nat) (late : Bool)
  | looked (slot : Nat) (found : Polled α)
  | left (slot : Nat)
  | dispatched (x : α)
  | ended

namespace Dispatcher

/--
The value that a loop takes out of its feed next.
-/
def next? (d : Dispatcher α) (loop : Nat) : Option α :=
  match d.loops[loop]? with
  | some ⟨feed, .running⟩ => (d.channels[feed]?).bind (·.queue.head?)
  | _ => none

/--
What is noticed of an action. A subscription that was given up notices nothing.
-/
def marks (d : Dispatcher α) : DispatcherAction α → List (Occurrence α)
  | .acquire i =>
    match d.starts[i]?, d.holder with
    | some .waiting, none => [.turn i d.started]
    | _, _ => []
  | .subscribe => [.subscribed d.slots.length d.ended]
  | .poll slot => if d.hasReader slot then [.looked slot (d.poll slot).2] else []
  | .unsubscribe slot => if d.hasReader slot then [.left slot] else []
  | .receive i => (d.next? i).toList.map .dispatched
  | .clear i =>
    match d.loops[i]?, d.holder with
    | some ⟨_, .ending⟩, none => [.ended]
    | _, _ => []
  | .drop handle =>
    if (d.handles.set handle false).any id || d.loops.any (·.phase ≠ .gone) then [] else [.ended]
  | _ => []

def history (d : Dispatcher α) (as : List (DispatcherAction α)) : List (Occurrence α) :=
  Run.history (fun d a => (d.step a).1) marks d as

/--
What an action does to a dispatcher, and what is noticed of it.
-/
inductive Effect (d : Dispatcher α) :
    DispatcherAction α → Dispatcher α → List (Occurrence α) → Prop where
  | idle (a : DispatcherAction α) : Effect d a d []
  | subscribe (he : d.ended = false) :
    Effect d .subscribe
      { d with
        slots := d.slots ++ [.empty true]
        registered := d.registered ++ [(d.nextId, d.slots.length)]
        nextId := d.nextId + 1
        tallies := { d.tallies with made := d.tallies.made + 1 } }
      [.subscribed d.slots.length d.ended]
  | subscribeLate (he : d.ended = true) :
    Effect d .subscribe { d with slots := d.slots ++ [.empty false] }
      [.subscribed d.slots.length d.ended]
  | look (k : Nat) (s : Slot α) (hs : d.slots[k]? = some s) :
    Effect d (.poll k) { d with slots := d.slots.set k s.poll.1 }
      (if s.hasReader then [.looked k s.poll.2] else [])
  | leave (k : Nat) (s : Slot α) (hs : d.slots[k]? = some s) (hr : s.hasReader = true) :
    Effect d (.unsubscribe k) { d with slots := d.slots.set k { s with hasReader := false } }
      [.left k]
  | start : Effect d .start { d with starts := d.starts ++ [.waiting] } []
  | decline (i : Nat) (hw : d.starts[i]? = some .waiting) (hh : d.holder = none)
    (hs : d.started = true) :
    Effect d (.acquire i) { d with starts := d.starts.set i (.done false (.ok ())) }
      [.turn i d.started]
  | begin (i : Nat) (hw : d.starts[i]? = some .waiting) (hh : d.holder = none)
    (hs : d.started = false) :
    Effect d (.acquire i) { d with starts := d.starts.set i .opening, holder := some i }
      [.turn i d.started]
  | succeed (i feed : Nat) (ho : d.starts[i]? = some .opening) :
    Effect d (.opened i (.ok feed))
      { d with
        starts := d.starts.set i (.done true (.ok ())), holder := none, started := true
        ended := false, loops := d.loops ++ [⟨feed, .running⟩] } []
  | fail (i : Nat) (e : ConfigError) (ho : d.starts[i]? = some .opening) :
    Effect d (.opened i (.error e))
      { d with starts := d.starts.set i (.done true (.error (.watch d.key e))), holder := none } []
  | makeChannel (capacity : Nat) :
    Effect d (.makeChannel capacity) { d with channels := d.channels ++ [.empty capacity] } []
  | send (channel : Nat) (x : α) :
    Effect d (.send channel x)
      { d with channels := d.channels.modify channel fun c => (c.send x).1 } []
  | dropSender (channel : Nat) :
    Effect d (.dropSender channel)
      { d with channels := d.channels.modify channel Channel.dropSender } []
  | receive (i feed : Nat) (c : Channel α) (x : α) (rest : List α)
    (hl : d.loops[i]? = some ⟨feed, .running⟩) (hc : d.channels[feed]? = some c)
    (hq : c.queue = x :: rest) :
    Effect d (.receive i)
      ({ d with channels := d.channels.set feed { c with queue := rest } }.dispatch x).1
      [.dispatched x]
  | finish (i feed : Nat) (hl : d.loops[i]? = some ⟨feed, .running⟩)
    (hx : d.isExhausted feed = true) :
    Effect d (.finish i) { d with loops := d.loops.set i ⟨feed, .ending⟩ } []
  | clear (i feed : Nat) (hl : d.loops[i]? = some ⟨feed, .ending⟩) (hh : d.holder = none) :
    Effect d (.clear i)
      { d.release with
        started := false, ended := true
        loops := d.loops.set i ⟨feed, .gone⟩
        channels := d.channels.modify feed Channel.dropReceiver } [.ended]
  | clone : Effect d .clone { d with handles := d.handles ++ [true] } []
  | drop (handle : Nat) :
    Effect d (.drop handle) { d with handles := d.handles.set handle false } []
  | desert (handle : Nat) (hgone : ∀ l ∈ d.loops, l.phase = .gone) :
    Effect d (.drop handle) { d.release with handles := d.handles.set handle false } [.ended]

variable {d : Dispatcher α}

theorem poll_of_slot {k : Nat} {s : Slot α} (hs : d.slots[k]? = some s) :
    d.poll k = ({ d with slots := d.slots.set k s.poll.1 }, s.poll.2) := by
  simp [poll, hs]

theorem hasReader_of_slot {k : Nat} {s : Slot α} (hs : d.slots[k]? = some s) :
    d.hasReader k = s.hasReader := by
  simp [hasReader, hs]

theorem effect_of_idle {a : DispatcherAction α} (hstep : (d.step a).1 = d) (hm : d.marks a = []) :
    d.Effect a (d.step a).1 (d.marks a) := by
  rw [hstep, hm]
  exact .idle a

theorem subscribe_effect (d : Dispatcher α) :
    d.Effect .subscribe (d.step .subscribe).1 (d.marks .subscribe) := by
  simp only [step, marks, subscribe]
  split
  . next he => exact .subscribeLate he
  . next he => exact .subscribe (by simpa using he)

theorem poll_effect (d : Dispatcher α) (k : Nat) :
    d.Effect (.poll k) (d.step (.poll k)).1 (d.marks (.poll k)) := by
  cases hs : d.slots[k]? with
  | none =>
    apply effect_of_idle
    . simp [step, poll, hs]
    . simp [marks, hasReader, hs]
  | some s =>
    simp only [step, marks, poll_of_slot hs, hasReader_of_slot hs]
    exact .look k s hs

theorem unsubscribe_effect (d : Dispatcher α) (k : Nat) :
    d.Effect (.unsubscribe k) (d.step (.unsubscribe k)).1 (d.marks (.unsubscribe k)) := by
  cases hs : d.slots[k]? with
  | none =>
    apply effect_of_idle
    . simp [step, unsubscribe, List.modify_eq_self (List.getElem?_eq_none_iff.1 hs)]
    . simp [marks, hasReader, hs]
  | some s =>
    simp only [step, unsubscribe, marks, hasReader_of_slot hs, modify_eq_set hs]
    cases hr : s.hasReader with
    | true => exact .leave k s hs hr
    | false =>
      have hsame : { s with hasReader := false } = s := by rw [← hr]
      rw [hsame, set_eq_self hs]
      exact .idle _

theorem acquire_effect (d : Dispatcher α) (i : Nat) :
    d.Effect (.acquire i) (d.step (.acquire i)).1 (d.marks (.acquire i)) := by
  by_cases h : d.starts[i]? = some .waiting ∧ d.holder = none
  . obtain ⟨hw, hh⟩ := h
    have hm : d.marks (.acquire i) = [.turn i d.started] := by simp [marks, hw, hh]
    rw [hm]
    simp only [step, acquire, hw, hh]
    split
    . next hs =>
      have heff := Effect.decline i hw hh hs
      rwa [hh] at heff
    . next hs => exact .begin i hw hh (by simpa using hs)
  . apply effect_of_idle
    . simp only [step, acquire]
      split
      . next hw hh => exact absurd ⟨hw, hh⟩ h
      . rfl
    . simp only [marks]
      split
      . next hw hh => exact absurd ⟨hw, hh⟩ h
      . rfl

theorem opened_effect (d : Dispatcher α) (i : Nat) (r : Except ConfigError Nat) :
    d.Effect (.opened i r) (d.step (.opened i r)).1 [] := by
  simp only [step, opened]
  split
  . next ho =>
    cases r with
    | ok feed => exact .succeed i feed ho
    | error e => exact .fail i e ho
  . exact .idle _

theorem next?_eq_some_iff {i : Nat} {x : α} :
    d.next? i = some x ↔ ∃ feed c rest,
      d.loops[i]? = some ⟨feed, .running⟩ ∧ d.channels[feed]? = some c ∧ c.queue = x :: rest := by
  unfold next?
  split
  . next feed hl => simp [hl, Option.bind_eq_some_iff, List.head?_eq_some_iff]
  . next hnot =>
    constructor
    . simp
    . rintro ⟨feed, _, _, hl, _⟩
      exact absurd hl (hnot feed)

theorem receive_of_next?_eq_none {i : Nat} (hx : d.next? i = none) : (d.receive i).1 = d := by
  unfold receive
  split
  . next feed hl =>
    split
    . next c hc =>
      split
      . next c' x hreceive =>
        cases hq : c.queue with
        | nil =>
          rw [Channel.receive, hq] at hreceive
          dsimp only at hreceive
          split at hreceive <;> simp at hreceive
        | cons y rest =>
          rw [next?_eq_some_iff.2 ⟨feed, c, rest, hl, hc, hq⟩] at hx
          simp at hx
      . rfl
    . rfl
  . rfl

theorem receive_effect (d : Dispatcher α) (i : Nat) :
    d.Effect (.receive i) (d.step (.receive i)).1 (d.marks (.receive i)) := by
  cases hx : d.next? i with
  | none =>
    apply effect_of_idle
    . exact receive_of_next?_eq_none hx
    . simp [marks, hx]
  | some x =>
    obtain ⟨feed, c, rest, hl, hc, hq⟩ := next?_eq_some_iff.1 hx
    have hm : d.marks (.receive i) = [.dispatched x] := by simp [marks, hx]
    rw [hm]
    simp only [step, receive, hl, hc, Channel.receive, hq]
    exact .receive i feed c x rest hl hc hq

theorem finish_effect (d : Dispatcher α) (i : Nat) :
    d.Effect (.finish i) (d.step (.finish i)).1 [] := by
  simp only [step, finish]
  split
  . next feed hl =>
    split
    . next hx => exact .finish i feed hl hx
    . exact .idle _
  . exact .idle _

theorem clear_effect (d : Dispatcher α) (i : Nat) :
    d.Effect (.clear i) (d.step (.clear i)).1 (d.marks (.clear i)) := by
  by_cases h : ∃ feed, d.loops[i]? = some ⟨feed, .ending⟩ ∧ d.holder = none
  . obtain ⟨feed, hl, hh⟩ := h
    have hm : d.marks (.clear i) = [.ended] := by simp [marks, hl, hh]
    have hstep : (d.step (.clear i)).1 = { d.release with
        started := false, ended := true
        loops := d.loops.set i ⟨feed, .gone⟩
        channels := d.channels.modify feed Channel.dropReceiver } := by
      simp only [step, clear, hl, hh]
    rw [hm, hstep]
    exact .clear i feed hl hh
  . apply effect_of_idle
    . simp only [step, clear]
      split
      . next feed hl hh => exact absurd ⟨feed, hl, hh⟩ h
      . rfl
    . simp only [marks]
      split
      . next feed hl hh => exact absurd ⟨feed, hl, hh⟩ h
      . rfl

theorem drop_effect (d : Dispatcher α) (handle : Nat) :
    d.Effect (.drop handle) (d.step (.drop handle)).1 (d.marks (.drop handle)) := by
  simp only [step, marks, drop]
  split
  . exact .drop handle
  . next hnot =>
    rw [Bool.or_eq_true, not_or] at hnot
    exact .desert handle (by simpa using hnot.2)

theorem step_effect (d : Dispatcher α) (a : DispatcherAction α) :
    d.Effect a (d.step a).1 (d.marks a) := by
  cases a with
  | subscribe => exact d.subscribe_effect
  | unsubscribe k => exact d.unsubscribe_effect k
  | poll k => exact d.poll_effect k
  | start => exact .start
  | acquire i => exact d.acquire_effect i
  | opened i r => exact d.opened_effect i r
  | makeChannel n => exact .makeChannel n
  | send c x => exact .send c x
  | dropSender c => exact .dropSender c
  | receive i => exact d.receive_effect i
  | finish i => exact d.finish_effect i
  | clear i => exact d.clear_effect i
  | clone => exact .clone
  | drop handle => exact d.drop_effect handle

theorem run_append (d : Dispatcher α) (as bs : List (DispatcherAction α)) :
    d.run (as ++ bs) = (d.run as).run bs :=
  List.foldl_append

theorem history_append (d : Dispatcher α) (as bs : List (DispatcherAction α)) :
    d.history (as ++ bs) = d.history as ++ (d.run as).history bs :=
  Run.history_append _ marks d as bs

/--
What every effect that keeps to a rule preserves is preserved by every run that keeps to it. The
effects are those of a dispatcher with at most one loop.
-/
theorem run_invariant (rule : DispatcherAction α → Prop)
    (P : Dispatcher α → List (Occurrence α) → Prop)
    (hstep : ∀ d h a next ms, rule a → OneLoop d → d.Effect a next ms → P d h → P next (h ++ ms))
    (as : List (DispatcherAction α)) (d : Dispatcher α) (hone : OneLoop d) (hd : P d [])
    (hrule : ∀ a ∈ as, rule a) : OneLoop (d.run as) ∧ P (d.run as) (d.history as) :=
  Run.invariant (fun (d : Dispatcher α) a => (d.step a).1) marks (fun _ => rule)
    (fun d h => OneLoop d ∧ P d h)
    (fun d h a ha hd => ⟨hd.1.step a, hstep d h a _ _ ha hd.1 (d.step_effect a) hd.2⟩) as d []
    ⟨hone, hd⟩ (Run.obeys_of_forall_mem _ _ d as fun a ha _ => hrule a ha)

end Dispatcher

end Upkeep.Config
