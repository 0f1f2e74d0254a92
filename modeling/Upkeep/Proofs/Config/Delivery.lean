import Upkeep.Proofs.Config.Pipe
import Upkeep.Proofs.Config.Window

/-!
This module contains the proof that the slots of a dispatcher keep what the history says of their
subscriptions, so that each look answers what it has to.
-/

namespace Upkeep.Config

namespace Slot

theorem fresh?_poll (s : Slot α) : s.poll.1.fresh? = none := by
  unfold poll fresh?
  cases hu : s.unseen with
  | false => simp [hu]
  | true => cases hv : s.value <;> simp [hv]

theorem answer_poll (s : Slot α) : s.poll.2 =
    match s.fresh? with
    | some x => .value x
    | none => if s.hasSource then .pending else .closed := by
  unfold poll fresh?
  cases s.unseen with
  | false => rfl
  | true => cases s.value <;> rfl

end Slot

namespace Dispatcher

open Subscription

variable {d next : Dispatcher α} {a : DispatcherAction α} {h ms : List (Occurrence α)}

/--
Values are handed to subscriptions only while the dispatcher holds on to them.
-/
def Sourced (d : Dispatcher α) : Prop :=
  ∀ r ∈ d.registered, ∃ s, d.slots[r.2]? = some s ∧ s.hasSource = true

namespace Sourced

theorem of_set (hd : Sourced d) {k : Nat} {s s' : Slot α} (hs : d.slots[k]? = some s)
    (hsource : s'.hasSource = s.hasSource) (hregistered : next.registered = d.registered)
    (hslots : next.slots = d.slots.set k s') : Sourced next := by
  intro r hr
  rw [hregistered] at hr
  obtain ⟨t, ht, htsource⟩ := hd r hr
  rw [hslots, getElem?_set_of_getElem? hs]
  split
  . next heq =>
    rw [heq, hs, Option.some.injEq] at ht
    exact ⟨s', rfl, by rw [hsource, ht, htsource]⟩
  . exact ⟨t, ht, htsource⟩

theorem concat (hd : Sourced d) (s : Slot α) (r : Nat × Nat) (hr : r ∈ d.registered) :
    ∃ t, (d.slots ++ [s])[r.2]? = some t ∧ t.hasSource = true := by
  obtain ⟨t, ht, htsource⟩ := hd r hr
  exact ⟨t, (List.getElem?_append_left (List.getElem?_eq_some_iff.1 ht).1).trans ht, htsource⟩

theorem dispatch (hd : Sourced d) (x : α) : Sourced (d.dispatch x).1 := by
  intro r hr
  simp only [Dispatcher.dispatch, List.partition_eq_filter_filter] at hr ⊢
  obtain ⟨t, ht, htsource⟩ := hd r (List.mem_filter.1 hr).1
  rw [getElem?_foldl_modify (fun s : Slot α => s.put x) (fun _ => rfl), if_pos ⟨r, hr, rfl⟩, ht]
  exact ⟨t.put x, rfl, htsource⟩

theorem step (hd : Sourced d) (he : d.Effect a next ms) : Sourced next := by
  cases he with
  | subscribe =>
    intro r hr
    rcases List.mem_append.1 hr with hold | hnew
    . exact hd.concat _ r hold
    . rw [List.mem_singleton.1 hnew]
      exact ⟨.empty true, List.getElem?_concat_length, rfl⟩
  | subscribeLate => exact hd.concat _
  | look k s hs => exact hd.of_set hs s.hasSource_poll rfl rfl
  | leave k s hs =>
    refine hd.of_set hs ?_ rfl rfl
    rfl
  | receive i feed c x rest => exact dispatch hd x
  | clear | desert => simp [Sourced, release]
  | _ => exact hd

end Sourced

theorem slot_dispatch (hlisted : Listed d) (hsourced : Sourced d) (x : α) {k : Nat} {s : Slot α}
    (hs : (d.dispatch x).1.slots[k]? = some s) (hr : s.hasReader = true) :
    ∃ t, d.slots[k]? = some t ∧ t.hasReader = true ∧ s = if t.hasSource then t.put x else t := by
  simp only [dispatch, List.partition_eq_filter_filter] at hs
  rw [getElem?_foldl_modify (fun s : Slot α => s.put x) (fun _ => rfl)] at hs
  split at hs
  . next hkept =>
    obtain ⟨r, hrmem, rfl⟩ := hkept
    obtain ⟨t, ht, htsource⟩ := hsourced r (List.mem_filter.1 hrmem).1
    rw [ht, Option.map_some, Option.some.injEq] at hs
    rw [← hs] at hr ⊢
    exact ⟨t, ht, hr, by rw [htsource]; rfl⟩
  . next hnot =>
    -- a slot with both of its ends is registered and kept, so that this one has lost its source
    refine ⟨s, hs, hr, ?_⟩
    cases hsource : s.hasSource with
    | false => rfl
    | true =>
      obtain ⟨id, hid⟩ := hlisted k s hs hsource hr
      have hkept : (id, k) ∈ d.registered.filter fun r => d.hasReader r.2 :=
        List.mem_filter.2 ⟨hid, by simp [hasReader, hs, hr]⟩
      exact absurd ⟨_, hkept, rfl⟩ hnot

theorem slot_release (hlisted : Listed d) {k : Nat} {s : Slot α}
    (hs : d.release.slots[k]? = some s) (hr : s.hasReader = true) :
    ∃ t, d.slots[k]? = some t ∧ t.hasReader = true ∧ s = { t with hasSource := false } := by
  rw [release, getElem?_foldl_modify (fun s : Slot α => { s with hasSource := false })
    (fun _ => rfl)] at hs
  split at hs
  . obtain ⟨t, ht, rfl⟩ := Option.map_eq_some_iff.1 hs
    exact ⟨t, ht, hr, rfl⟩
  . next hnot =>
    refine ⟨s, hs, hr, ?_⟩
    cases hsource : s.hasSource with
    | false => rw [← hsource]
    | true =>
      obtain ⟨id, hid⟩ := hlisted k s hs hsource hr
      exact absurd ⟨_, hid, rfl⟩ hnot

theorem length_slots_le (he : d.Effect a next ms) : d.slots.length ≤ next.slots.length := by
  cases he with
  | subscribe | subscribeLate | look | leave => simp
  | receive i feed c x =>
    exact Nat.le_of_eq (length_foldl_modify (fun s : Slot α => s.put x) Prod.snd _ d.slots).symm
  | clear | desert => exact Nat.le_of_eq (length_foldl_modify _ Prod.snd d.registered d.slots).symm
  | _ => exact Nat.le_refl _

/--
What the dispatcher knows of a subscription is what the history says of it, for as long as its
subscriber is there.
-/
structure Delivers (k : Nat) (d : Dispatcher α) (h : List (Occurrence α)) : Prop where
  unmade : d.slots.length ≤ k → since k h = [] ∧ ∀ p, .looked k p ∉ h
  fresh : ∀ s, d.slots[k]? = some s → s.hasReader = true → s.fresh? = (unseen k h).getLast?
  source : ∀ s, d.slots[k]? = some s → s.hasReader = true → s.hasSource = isOpen k h
  answered : Answered k h

namespace Delivers

variable {k : Nat}

theorem make (key : String) : Delivers k (Dispatcher.make key : Dispatcher α) [] := by
  constructor
  . intro _
    exact ⟨rfl, by simp⟩
  . simp [Dispatcher.make]
  . simp [Dispatcher.make]
  . constructor <;> simp

theorem still (hd : Delivers k d h) (hlength : d.slots.length ≤ next.slots.length)
    (hslots : ∀ s, next.slots[k]? = some s → s.hasReader = true → d.slots[k]? = some s) :
    Delivers k next h := by
  refine ⟨?_, ?_, ?_, hd.answered⟩
  . intro hk
    exact hd.unmade (Nat.le_trans hlength hk)
  . intro s hs hr
    exact hd.fresh s (hslots s hs hr) hr
  . intro s hs hr
    exact hd.source s (hslots s hs hr) hr

theorem same (hd : Delivers k d h) (hslots : next.slots = d.slots) : Delivers k next h :=
  hd.still (Nat.le_of_eq (congrArg List.length hslots.symm)) (fun _ hs _ => hslots ▸ hs)

theorem record (hd : Delivers k d h) {m : Occurrence α} (hj : m.joins k = false)
    (hl : m.isLook k = false) (hlength : d.slots.length ≤ next.slots.length)
    (hslots : ∀ s, next.slots[k]? = some s → s.hasReader = true →
      s.fresh? = (unseen k h ++ if isOpen k h then m.dispatched?.toList else []).getLast? ∧
        s.hasSource = (isOpen k h && !m.isEnd)) : Delivers k next (h ++ [m]) := by
  have hno : ∀ p, m ≠ .looked k p := by
    rintro p rfl
    simp [Occurrence.isLook] at hl
  refine ⟨?_, ?_, ?_, hd.answered.concat (fun p hm => absurd hm (hno p)) (by simp [hj])⟩
  . intro hk
    obtain ⟨hs, hlooks⟩ := hd.unmade (Nat.le_trans hlength hk)
    refine ⟨by simp [since_concat, hs, hj], ?_⟩
    intro p hp
    rcases List.mem_append.1 hp with hold | hnew
    . exact hlooks p hold
    . exact hno p (List.mem_singleton.1 hnew).symm
  . intro s hs hr
    rw [unseen_concat_of_not_look hl]
    exact (hslots s hs hr).1
  . intro s hs hr
    rw [isOpen_concat_of_not_joins hj]
    exact (hslots s hs hr).2

theorem pass (hd : Delivers k d h) (m : Occurrence α) (hj : m.joins k = false)
    (hl : m.isLook k = false) (he : m.isEnd = false) (hx : m.dispatched? = none) :
    Delivers k d (h ++ [m]) := by
  refine hd.record hj hl (Nat.le_refl _) ?_
  intro s hs hr
  rw [hx, he]
  simpa using And.intro (hd.fresh s hs hr) (hd.source s hs hr)

theorem unseen_of_unmade (hd : Delivers k d h) (hk : d.slots.length ≤ k) : unseen k h = [] := by
  rw [unseen, window_of_since_eq_nil (hd.unmade hk).1, List.drop_nil]

theorem subscribe (hd : Delivers d.slots.length d h) (late : Bool)
    (hslots : next.slots = d.slots ++ [.empty !late]) :
    Delivers d.slots.length next (h ++ [.subscribed d.slots.length late]) := by
  obtain ⟨hsince, hlooks⟩ := hd.unmade (Nat.le_refl _)
  have hopen := isOpen_of_since_eq_nil hsince
  have hslot : ∀ s, next.slots[d.slots.length]? = some s → s = .empty !late := by
    intro s hs
    rw [hslots, List.getElem?_concat_length, Option.some.injEq] at hs
    exact hs.symm
  refine ⟨?_, ?_, ?_, hd.answered.concat (by simp) fun _ => hlooks⟩
  . intro hk
    rw [hslots, List.length_append, List.length_singleton] at hk
    omega
  . intro s hs _
    rw [hslot s hs, unseen_concat_of_not_look rfl, hopen, hd.unseen_of_unmade (Nat.le_refl _)]
    rfl
  . intro s hs _
    rw [hslot s hs]
    cases late with
    | true =>
      rw [isOpen_concat_of_not_joins (by simp [Occurrence.joins]), hopen]
      rfl
    | false =>
      rw [isOpen_concat_of_joins (by simp [Occurrence.joins]) hsince]
      rfl

theorem look (hd : Delivers k d h) {s : Slot α} (hs : d.slots[k]? = some s)
    (hr : s.hasReader = true) (hslots : next.slots = d.slots.set k s.poll.1) :
    Delivers k next (h ++ [.looked k s.poll.2]) := by
  have hlt := (List.getElem?_eq_some_iff.1 hs).1
  have hslot : ∀ s', next.slots[k]? = some s' → s' = s.poll.1 := by
    intro s' hs'
    rw [hslots, List.getElem?_set_self hlt, Option.some.injEq] at hs'
    exact hs'.symm
  have hlook : Occurrence.isLook k (.looked k s.poll.2) = true := by simp [Occurrence.isLook]
  have hanswer : s.poll.2 = answer k h := by
    rw [s.answer_poll, hd.fresh s hs hr, hd.source s hs hr]
    rfl
  refine ⟨?_, ?_, ?_, hd.answered.concat ?_ (by simp [Occurrence.joins])⟩
  . intro hk
    rw [hslots, List.length_set] at hk
    omega
  . intro s' hs' _
    rw [hslot s' hs', s.fresh?_poll, unseen_concat_of_look hlook]
    rfl
  . intro s' hs' _
    rw [hslot s' hs', s.hasSource_poll, hd.source s hs hr, isOpen_concat_of_not_joins rfl]
    simp [Occurrence.isEnd]
  . intro p hp
    simp only [Occurrence.looked.injEq, true_and] at hp
    rw [← hp, hanswer]

theorem dispatched (hd : Delivers k d h) (x : α)
    (hlength : d.slots.length ≤ next.slots.length)
    (hslots : ∀ s, next.slots[k]? = some s → s.hasReader = true →
      ∃ t, d.slots[k]? = some t ∧ t.hasReader = true ∧ s = if t.hasSource then t.put x else t) :
    Delivers k next (h ++ [.dispatched x]) := by
  refine hd.record rfl rfl hlength ?_
  intro s hs hr
  obtain ⟨t, ht, htr, rfl⟩ := hslots s hs hr
  have hsource := hd.source t ht htr
  rw [← hsource]
  cases htsource : t.hasSource with
  | true => simp [Slot.fresh?, Slot.put, Occurrence.dispatched?, Occurrence.isEnd, htsource]
  | false => simpa [htsource] using hd.fresh t ht htr

theorem ended (hd : Delivers k d h) (hlength : d.slots.length ≤ next.slots.length)
    (hslots : ∀ s, next.slots[k]? = some s → s.hasReader = true →
      ∃ t, d.slots[k]? = some t ∧ t.hasReader = true ∧ s = { t with hasSource := false }) :
    Delivers k next (h ++ [.ended]) := by
  refine hd.record rfl rfl hlength ?_
  intro s hs hr
  obtain ⟨t, ht, htr, rfl⟩ := hslots s hs hr
  have hfresh : Slot.fresh? { t with hasSource := false } = (unseen k h).getLast? :=
    hd.fresh t ht htr
  exact ⟨by simpa [Occurrence.dispatched?] using hfresh, by simp [Occurrence.isEnd]⟩

theorem of_set (hd : Delivers k d h) {j : Nat} {s : Slot α} (hj : j = k → s.hasReader = false)
    (hslots : next.slots = d.slots.set j s) : Delivers k next h := by
  refine hd.still (by simp [hslots]) ?_
  intro s' hs' hr
  rw [hslots] at hs'
  rcases origin_of_set hs' with ⟨hk, rfl⟩ | ⟨-, hold⟩
  . rw [hj hk.symm] at hr
    exact absurd hr (by simp)
  . exact hold

theorem step (hd : Delivers k d h) (hlisted : Listed d) (hsourced : Sourced d)
    (he : d.Effect a next ms) : Delivers k next (h ++ ms) := by
  have hlength := length_slots_le he
  cases he with
  | subscribe hended | subscribeLate hended =>
    by_cases hk : k = d.slots.length
    . subst hk
      rw [hended]
      exact hd.subscribe _ rfl
    . have hj : Occurrence.joins k (.subscribed d.slots.length d.ended : Occurrence α) = false := by
        simp [Occurrence.joins, Ne.symm hk]
      refine (hd.pass _ hj rfl rfl rfl).still hlength ?_
      intro s hs _
      rwa [getElem?_concat, if_neg hk] at hs
  | look j s hs =>
    split
    . next hr =>
      by_cases hj : j = k
      . subst hj
        exact hd.look hs hr rfl
      . have hl : Occurrence.isLook k (.looked j s.poll.2) = false := by
          simp [Occurrence.isLook, hj]
        exact (hd.pass _ rfl hl rfl rfl).of_set (absurd · hj) rfl
    . next hr =>
      -- nobody looks through a slot that was given up
      rw [List.append_nil]
      exact hd.of_set (fun _ => by simpa using hr) rfl
  | leave j s hs hr => exact (hd.pass (.left j) rfl rfl rfl rfl).of_set (fun _ => rfl) rfl
  | receive i feed c x rest hl hc hq =>
    exact hd.dispatched x hlength fun s hs hr => slot_dispatch hlisted hsourced x hs hr
  | clear | desert => exact hd.ended hlength fun s hs hr => slot_release hlisted hs hr
  | decline i | begin i => exact (hd.pass (.turn i d.started) rfl rfl rfl rfl).same rfl
  | _ =>
    rw [List.append_nil]
    exact hd.same rfl

theorem run (hd : Delivers k d h) (hlisted : Listed d) (hsourced : Sourced d)
    (as : List (DispatcherAction α)) : Delivers k (d.run as) (h ++ d.history as) := by
  have hrun := Run.invariant_of_step (fun (d : Dispatcher α) a => (d.step a).1) marks
    (fun d h => Listed d ∧ Sourced d ∧ Delivers k d h)
    (fun d h a hd => ⟨hd.1.step a, hd.2.1.step (d.step_effect a),
      hd.2.2.step hd.1 hd.2.1 (d.step_effect a)⟩) as d h ⟨hlisted, hsourced, hd⟩
  exact hrun.2.2

theorem of_run (key : String) (as : List (DispatcherAction α)) :
    Delivers k ((Dispatcher.make key).run as) ((Dispatcher.make key).history as) :=
  (Delivers.make key).run (.make key) (by simp [Sourced, Dispatcher.make]) as

end Delivers

theorem not_joins_of_made {k : Nat} (hk : k < d.slots.length) (he : d.Effect a next ms) :
    ∀ m ∈ ms, m.joins k = false := by
  cases he with
  | subscribe | subscribeLate =>
    have hne : d.slots.length ≠ k := by omega
    simp [Occurrence.joins, hne]
  | look j s => split <;> simp [Occurrence.joins]
  | _ => simp [Occurrence.joins]

theorem since_of_made {k : Nat} (hs : since k h = []) (hk : k < d.slots.length)
    (as : List (DispatcherAction α)) : since k (h ++ d.history as) = [] := by
  have hstep : ∀ (d : Dispatcher α) h a, (k < d.slots.length ∧ ∀ m ∈ h, m.joins k = false) →
      k < (d.step a).1.slots.length ∧ ∀ m ∈ h ++ d.marks a, m.joins k = false := by
    rintro d h a ⟨hk, hold⟩
    have he := d.step_effect a
    have hnew := not_joins_of_made hk he
    exact ⟨Nat.lt_of_lt_of_le hk (length_slots_le he), List.forall_mem_append.2 ⟨hold, hnew⟩⟩
  have hrun := Run.invariant_of_step (fun (d : Dispatcher α) a => (d.step a).1) marks
    (fun d h => k < d.slots.length ∧ ∀ m ∈ h, m.joins k = false) hstep as d h
    ⟨hk, since_eq_nil_iff.1 hs⟩
  exact since_eq_nil_iff.2 hrun.2

theorem since_of_late {k : Nat} (key : String) (before after : List (DispatcherAction α))
    (hended : ((make key).run before).ended = true)
    (hk : ((make key).run before).slots.length = k) :
    since k ((make key).history (before ++ .subscribe :: after)) = [] := by
  have hunmade := (Delivers.of_run key before).unmade (Nat.le_of_eq hk)
  have hlate : since k ((make key).history before ++ [.subscribed k true]) = [] := by
    simp [since_concat, hunmade.1, Occurrence.joins]
  have hmade : k < ((make key).run before).subscribe.slots.length := by
    simp [subscribe, hended, hk]
  have hmarks : ((make key).run before).history (.subscribe :: after) =
      .subscribed k true :: ((make key).run before).subscribe.history after := by
    rw [← hk, ← hended]
    rfl
  rw [history_append, hmarks, ← List.singleton_append, ← List.append_assoc]
  exact since_of_made hlate hmade after

/--
A subscription finds values that were handed out between its making and the end, in their order.
Each look finds the newest one if it is new to the subscription. A look finds the subscription
closed only after the last value was found, and from then on all looks do. A subscription that is
made when the dispatcher has ended is closed from the beginning.
-/
theorem subscriptions_find_newest_in_order (key : String) (as : List (DispatcherAction α))
    (k : Nat) :
    let h := (make key).history as
    (found k h).Sublist (window k h) ∧
    (∀ h₁ p h₂, h = h₁ ++ .looked k p :: h₂ →
      p = answer k h₁ ∧ (∀ x, p = .value x → (window k h₁).getLast? = some x) ∧
      (p = .closed →
        window k h = window k h₁ ∧ (found k h₁).getLast? = (window k h₁).getLast? ∧
        ∀ p', .looked k p' ∈ h₂ → p' = .closed)) ∧
    ∀ before after, as = before ++ .subscribe :: after →
      ((make key).run before).ended = true → ((make key).run before).slots.length = k →
      window k h = [] ∧ ∀ p, .looked k p ∈ h → p = .closed := by
  intro h
  have hd : Delivers k _ h := Delivers.of_run key as
  have ha := hd.answered
  refine ⟨?_, ?_, ?_⟩
  . exact ha.found_untilLook.1.trans (window_untilLook k h).sublist
  . intro h₁ p h₂ heq
    have hp := ha.answers h₁ p h₂ heq
    refine ⟨hp, ?_, ?_⟩
    . rintro x rfl
      exact answer_of_value hp.symm
    . rintro rfl
      obtain ⟨hwindow, hclosed⟩ := ha.closed_of_mem heq
      have hfound := Answered.found_of_closed (heq ▸ ha).of_append hp.symm
      exact ⟨hwindow, hfound, hclosed⟩
  . rintro before after rfl hended hk
    have hsince : since k h = [] := since_of_late key before after hended hk
    refine ⟨window_of_since_eq_nil hsince, ?_⟩
    intro p hp
    obtain ⟨s, t, hsplit⟩ := List.append_of_mem hp
    rw [ha.answers s p t hsplit]
    apply answer_of_since_eq_nil
    rw [since_eq_nil_iff] at hsince ⊢
    intro m hm
    exact hsince m (hsplit ▸ List.mem_append_left _ hm)

/--
A feed with three values, of which the subscription skips one and finds another after the end. Then a
second subscription is made, and the dispatcher is started again.
-/
def subscribedTwice : List (DispatcherAction Nat) :=
  [.makeChannel 4, .subscribe, .start, .acquire 0, .opened 0 (.ok 0), .send 0 1, .send 0 2,
    .receive 0, .receive 0, .poll 0, .poll 0, .send 0 3, .receive 0, .dropSender 0, .finish 0,
    .clear 0, .poll 0, .poll 0, .subscribe, .makeChannel 4, .start, .acquire 1, .opened 1 (.ok 1),
    .send 1 4, .receive 1, .poll 0, .poll 1]

theorem subscriptions_of_ended_feed_stay_closed :
    let h := (make "flags").history subscribedTwice
    (window 0 h = [1, 2, 3] ∧ found 0 h = [2, 3] ∧ (found 0 h).Sublist (window 0 h)) ∧
      (h[9]? = some (.looked 0 .closed) ∧ ∀ p, .looked 0 p ∈ h.drop 10 → p = .closed) ∧
      ∀ p, .looked 1 p ∈ h → p = .closed := by
  intro h
  have hfirst := subscriptions_find_newest_in_order "flags" subscribedTwice 0
  have hsecond := subscriptions_find_newest_in_order "flags" subscribedTwice 1
  refine ⟨⟨rfl, rfl, hfirst.1⟩, ⟨rfl, ?_⟩, ?_⟩
  . exact ((hfirst.2.1 (h.take 9) .closed (h.drop 10) rfl).2.2 rfl).2.2
  . exact (hsecond.2.2 (subscribedTwice.take 18) (subscribedTwice.drop 19) rfl rfl rfl).2

end Dispatcher

end Upkeep.Config
