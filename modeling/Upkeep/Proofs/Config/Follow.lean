import Upkeep.Proofs.Config.Feed
import Upkeep.Proofs.Config.Pipe

/-!
This module contains the proof that a scene is a way of events for each binding that follows a
subscription, whatever else happens in it, and what the setting of such a binding is once everything
has settled.
-/

namespace Upkeep.Config

/--
The way that events take: the loop that takes them out of a feed, the slot of a subscription, and the
binding that follows it.
-/
structure Route where
  loop : Nat
  feed : Nat
  slot : Nat
  binding : Nat

/--
Whether an action leaves the way to those who are on it: nobody else looks at the slot or gives it
up, takes values out of the feed, or sets the binding.
-/
def SceneAction.Spares (route : Route) : SceneAction → Prop
  | .dispatcher (.poll i) | .dispatcher (.unsubscribe i) => i ≠ route.slot
  | .apply i _ => i ≠ route.binding
  | .follow i k => i = route.binding ↔ k = route.slot
  | .file a => a.Spares route.feed
  | _ => True

namespace Dispatcher

variable {d : Dispatcher α} {loop feed : Nat}

theorem drop_of_running (hloop : d.loops[loop]? = some ⟨feed, .running⟩) (i : Nat) :
    d.drop i = { d with handles := d.handles.set i false } := by
  unfold drop
  dsimp only
  rw [if_pos]
  rw [Bool.or_eq_true, List.any_eq_true.2 ⟨_, List.mem_of_getElem? hloop, by simp⟩]
  exact Or.inr rfl

theorem slot_step (hd : OneLoop d) (hloop : d.loops[loop]? = some ⟨feed, .running⟩) {id k : Nat}
    {x : Slot α} (hid : (id, k) ∈ d.registered) (hx : d.slots[k]? = some x)
    (a : DispatcherAction α) (hreceive : ∀ i, a ≠ .receive i) (hpoll : a ≠ .poll k)
    (hunsubscribe : a ≠ .unsubscribe k) :
    (d.step a).1.slots[k]? = some x ∧ (id, k) ∈ (d.step a).1.registered := by
  -- the loop that runs keeps the dispatcher from letting go of its subscriptions
  have hlt := (List.getElem?_eq_some_iff.1 hx).1
  cases a with
  | subscribe =>
    simp only [step, subscribe]
    split
    . exact ⟨by rw [List.getElem?_append_left hlt, hx], hid⟩
    . exact ⟨by rw [List.getElem?_append_left hlt, hx], List.mem_append_left _ hid⟩
  | unsubscribe i =>
    have hi : i ≠ k := fun h => hunsubscribe (congrArg _ h)
    exact ⟨by simp [step, unsubscribe, hi, hx], hid⟩
  | poll i =>
    have hi : i ≠ k := fun h => hpoll (congrArg _ h)
    simp only [step, poll]
    split
    . exact ⟨by rw [List.getElem?_set_ne hi, hx], hid⟩
    . exact ⟨hx, hid⟩
  | receive i => exact absurd rfl (hreceive i)
  | acquire i =>
    simp only [step, acquire]
    split
    . split <;> exact ⟨hx, hid⟩
    . exact ⟨hx, hid⟩
  | opened i r =>
    simp only [step, opened]
    split
    . cases r <;> exact ⟨hx, hid⟩
    . exact ⟨hx, hid⟩
  | finish i =>
    simp only [step, finish]
    split
    . split <;> exact ⟨hx, hid⟩
    . exact ⟨hx, hid⟩
  | clear i =>
    simp only [step, clear_of_running hd hloop i]
    exact ⟨hx, hid⟩
  | drop i =>
    simp only [step, drop_of_running hloop i]
    exact ⟨hx, hid⟩
  | start | makeChannel | send | dropSender | clone => exact ⟨hx, hid⟩

theorem receive_of_queue (hloop : d.loops[loop]? = some ⟨feed, .running⟩) {id k : Nat}
    {x : Slot α} (hid : (id, k) ∈ d.registered) (hx : d.slots[k]? = some x)
    (hreader : x.hasReader = true) {v : α} {rest : List α}
    (hq : queueAt d.channels feed = v :: rest) :
    queueAt (d.receive loop).1.channels feed = rest ∧
      (d.receive loop).1.slots[k]? = some (x.put v) ∧ (id, k) ∈ (d.receive loop).1.registered := by
  obtain ⟨c, hc, hqueue⟩ : ∃ c, d.channels[feed]? = some c ∧ c.queue = v :: rest := by
    cases hc : d.channels[feed]? with
    | none => simp [queueAt, hc] at hq
    | some c => exact ⟨c, rfl, by simpa [queueAt, hc] using hq⟩
  have hreceive : c.receive = ({ c with queue := rest }, .value v) := by
    rw [Channel.receive, hqueue]
  have hstep : (d.receive loop).1 =
      ({ d with channels := d.channels.set feed { c with queue := rest } }.dispatch v).1 := by
    rw [receive, hloop]
    simp only [hc, hreceive]
  have hmem : (id, k) ∈ d.registered.filter fun r => d.hasReader r.2 :=
    List.mem_filter.2 ⟨hid, by simp [hasReader, hx, hreader]⟩
  rw [hstep]
  refine ⟨?_, ?_, ?_⟩
  . rw [channels_dispatch, queueAt, List.getElem?_set_self (List.getElem?_eq_some_iff.1 hc).1]
    rfl
  . simp only [dispatch, List.partition_eq_filter_filter]
    rw [getElem?_foldl_modify (fun s : Slot α => s.put v) (fun _ => rfl), if_pos ⟨_, hmem, rfl⟩, hx]
    rfl
  . simp only [dispatch, List.partition_eq_filter_filter]
    exact hmem

theorem receive_of_queue_nil (hloop : d.loops[loop]? = some ⟨feed, .running⟩)
    (hq : queueAt d.channels feed = []) : (d.receive loop).1 = d := by
  rw [receive, hloop]
  cases hc : d.channels[feed]? with
  | none => simp only [hc]
  | some c =>
    have hnil : c.queue = [] := by simpa [queueAt, hc] using hq
    have hreceive : c.receive = (c, if c.hasSender then .pending else .closed) := by
      rw [Channel.receive, hnil]
    simp only [hc, hreceive]
    split
    . next heq =>
      split at heq <;> simp at heq
    . rfl

end Dispatcher

namespace Route

/--
What an action does on the way of events. What it adds to the queue of the feed has come into it.
-/
def moments (route : Route) (s : Scene) (a : SceneAction) : List Moment :=
  match a with
  | .dispatcher (.receive i) =>
    if i = route.loop then (queueAt s.channels route.feed).head?.toList.map .arrived else []
  | .turn i => if s.followers[i]? = some ⟨route.binding, route.slot, false⟩ then [.looked] else []
  | a =>
    ((queueAt (s.step a).1.channels route.feed).drop (queueAt s.channels route.feed).length).map
      .sent

def history (route : Route) (s : Scene) (as : List SceneAction) : List Moment :=
  Run.history (fun (s : Scene) a => (s.step a).1) route.moments s as

/--
Whether an action keeps to the way: the loop runs on, and those on the way have it to themselves.
-/
def Keeps (route : Route) (s : Scene) (a : SceneAction) : Prop :=
  (s.step a).1.dispatcher.loops[route.loop]? = some ⟨route.feed, .running⟩ ∧ a.Spares route

def Kept (route : Route) (s : Scene) (as : List SceneAction) : Prop :=
  Run.Obeys (fun (s : Scene) a => (s.step a).1) route.Keeps s as

/--
What a scene has on the way of events.
-/
structure Shows (route : Route) (s : Scene) (p : Pipe) : Prop where
  queue : queueAt s.channels route.feed = p.queue
  slot : s.dispatcher.slots[route.slot]? = some p.slot
  binding : s.bindings[route.binding]? = some p.binding

/--
The way is open: the loop runs, the subscription is registered, and it and the binding have no other
follower.
-/
structure Open (route : Route) (s : Scene) : Prop where
  one : s.dispatcher.OneLoop
  loop : s.dispatcher.loops[route.loop]? = some ⟨route.feed, .running⟩
  registered : ∃ id, (id, route.slot) ∈ s.dispatcher.registered
  followers : ∀ f ∈ s.followers, f.binding = route.binding ↔ f.slot = route.slot

/--
An action goes along with a step on the way of events.
-/
def Advances (route : Route) (p : Pipe) (next : Scene) (ms : List Moment) : Prop :=
  (∃ id, (id, route.slot) ∈ next.dispatcher.registered) ∧
  (∀ f ∈ next.followers, f.binding = route.binding ↔ f.slot = route.slot) ∧
  ∃ p', p.Step p' ms ∧ route.Shows next p'

variable {route : Route} {s next : Scene} {p : Pipe}

theorem advances_of_prefix (hp : route.Shows s p)
    (hregistered : ∃ id, (id, route.slot) ∈ next.dispatcher.registered)
    (hfollowers : ∀ f ∈ next.followers, f.binding = route.binding ↔ f.slot = route.slot)
    (hslot : next.dispatcher.slots[route.slot]? = s.dispatcher.slots[route.slot]?)
    (hbinding : next.bindings[route.binding]? = s.bindings[route.binding]?)
    (hqueue : queueAt s.channels route.feed <+: queueAt next.channels route.feed) :
    route.Advances p next (((queueAt next.channels route.feed).drop
      (queueAt s.channels route.feed).length).map .sent) := by
  -- what the queue has got at its end is what was sent
  obtain ⟨rs, hrs⟩ := hqueue
  rw [← hrs, List.drop_left]
  refine ⟨hregistered, hfollowers, _, .send rs, ?_, ?_, ?_⟩
  . rw [← hrs, hp.queue]
  . rw [hslot, hp.slot]
  . rw [hbinding, hp.binding]

theorem advances_of_still (hp : route.Shows s p)
    (hregistered : ∃ id, (id, route.slot) ∈ next.dispatcher.registered)
    (hfollowers : ∀ f ∈ next.followers, f.binding = route.binding ↔ f.slot = route.slot)
    (hslot : next.dispatcher.slots[route.slot]? = s.dispatcher.slots[route.slot]?)
    (hbinding : next.bindings[route.binding]? = s.bindings[route.binding]?)
    (hqueue : queueAt next.channels route.feed = queueAt s.channels route.feed) :
    route.Advances p next [] := by
  have hadv := advances_of_prefix hp hregistered hfollowers hslot hbinding (prefix_of_eq hqueue)
  rw [hqueue, List.drop_length] at hadv
  exact hadv

theorem advances_dispatcher (hs : route.Open s) (hp : route.Shows s p)
    (a : DispatcherAction Response) (hreceive : ∀ i, a ≠ .receive i)
    (ha : SceneAction.Spares route (.dispatcher a)) :
    route.Advances p (s.stepDispatcher a).1 (((queueAt (s.stepDispatcher a).1.channels
      route.feed).drop (queueAt s.channels route.feed).length).map .sent) := by
  obtain ⟨id, hid⟩ := hs.registered
  have hpoll : a ≠ .poll route.slot := by
    rintro rfl
    exact ha rfl
  have hunsubscribe : a ≠ .unsubscribe route.slot := by
    rintro rfl
    exact ha rfl
  obtain ⟨hslot, hid'⟩ := Dispatcher.slot_step hs.one hs.loop hid hp.slot a hreceive hpoll
    hunsubscribe
  refine advances_of_prefix hp ⟨id, hid'⟩ hs.followers ?_ rfl ?_
  . rw [hp.slot]
    exact hslot
  . exact Dispatcher.queueAt_step hs.one hs.loop a (hreceive route.loop) route.feed

theorem advances_receive (hs : route.Open s) (hp : route.Shows s p)
    (hreader : p.slot.hasReader = true) (i : Nat) :
    route.Advances p (s.step (.dispatcher (.receive i))).1
      (route.moments s (.dispatcher (.receive i))) := by
  obtain ⟨id, hid⟩ := hs.registered
  have hidle : ∀ i, (s.dispatcher.receive i).1 = s.dispatcher →
      route.Advances p (s.step (.dispatcher (.receive i))).1 [] := by
    intro i heq
    have hstep : (s.step (.dispatcher (.receive i))).1 = s := by
      simp only [Scene.step, Scene.stepDispatcher, Dispatcher.step, heq]
    rw [hstep]
    exact advances_of_still hp ⟨id, hid⟩ hs.followers rfl rfl rfl
  by_cases hi : i = route.loop
  . subst hi
    cases hq : queueAt s.channels route.feed with
    | nil =>
      simp only [moments, if_true, hq]
      exact hidle _ (Dispatcher.receive_of_queue_nil hs.loop hq)
    | cons r rest =>
      obtain ⟨hqueue, hslot, hid'⟩ :=
        Dispatcher.receive_of_queue hs.loop hid hp.slot hreader hq
      simp only [moments, if_true, hq]
      exact ⟨⟨id, hid'⟩, hs.followers, _, .arrive r rest (hp.queue.symm.trans hq), hqueue, hslot,
        hp.binding⟩
  . simp only [moments, if_neg hi]
    exact hidle i (Dispatcher.receive_of_ne hs.one hs.loop i hi)

theorem poll_other (d : Dispatcher Response) {i k : Nat} (hi : i ≠ k) :
    (d.poll i).1.registered = d.registered ∧ (d.poll i).1.channels = d.channels ∧
      (d.poll i).1.slots[k]? = d.slots[k]? := by
  unfold Dispatcher.poll
  split
  . exact ⟨rfl, rfl, List.getElem?_set_ne hi⟩
  . exact ⟨rfl, rfl, rfl⟩

theorem advances_turn_other (hs : route.Open s) (hp : route.Shows s p) (i b k : Nat)
    (hf : s.followers[i]? = some ⟨b, k, false⟩) (hk : k ≠ route.slot) :
    route.Advances p (s.turn i).1 [] := by
  have hway := hs.followers _ (List.mem_of_getElem? hf)
  have hb : b ≠ route.binding := fun hb => hk (hway.1 hb)
  unfold Scene.turn
  rw [hf]
  dsimp only
  split
  . next d r bound hpoll hbound =>
    obtain ⟨hregistered, hchannels, hslot⟩ := poll_other s.dispatcher hk
    rw [hpoll] at hregistered hchannels hslot
    refine advances_of_still hp ?_ hs.followers hslot ?_ ?_
    . rw [hregistered]
      exact hs.registered
    . exact List.getElem?_set_ne hb
    . rw [Scene.channels, hchannels]
      rfl
  . refine advances_of_still hp hs.registered ?_ ?_ rfl rfl
    . intro f hf
      rcases List.mem_or_eq_of_mem_set hf with hf | rfl
      . exact hs.followers f hf
      . exact hway
    . simp [Dispatcher.unsubscribe, hk]
  . exact advances_of_still hp hs.registered hs.followers rfl rfl rfl

theorem advances_turn_self (hs : route.Open s) (hp : route.Shows s p)
    (hsource : p.slot.hasSource = true) (i : Nat)
    (hf : s.followers[i]? = some ⟨route.binding, route.slot, false⟩) :
    route.Advances p (s.turn i).1 [.looked] := by
  have hlt := (List.getElem?_eq_some_iff.1 hp.slot).1
  have hlt' := (List.getElem?_eq_some_iff.1 hp.binding).1
  cases hfresh : p.slot.fresh? with
  | some r =>
    have hpoll : s.dispatcher.poll route.slot =
        ({ s.dispatcher with
          slots := s.dispatcher.slots.set route.slot { p.slot with unseen := false } },
          .value r) := by
      rw [Dispatcher.poll, hp.slot]
      dsimp only
      rw [p.slot.poll_of_fresh r hfresh]
    unfold Scene.turn
    rw [hf]
    simp only [hpoll, hp.binding]
    refine ⟨hs.registered, hs.followers, _, .find r hfresh, hp.queue, ?_, ?_⟩
    . exact List.getElem?_set_self hlt
    . exact List.getElem?_set_self hlt'
  | none =>
    have hset : s.dispatcher.slots.set route.slot p.slot = s.dispatcher.slots :=
      set_eq_self hp.slot
    have hpoll : s.dispatcher.poll route.slot = (s.dispatcher, .pending) := by
      rw [Dispatcher.poll, hp.slot]
      simp only [p.slot.poll_of_not_fresh hfresh hsource, hset]
    unfold Scene.turn
    rw [hf]
    simp only [hpoll, hp.binding]
    exact ⟨hs.registered, hs.followers, _, .miss hfresh, hp⟩

theorem advances_turn (hs : route.Open s) (hp : route.Shows s p)
    (hsource : p.slot.hasSource = true) (i : Nat) :
    route.Advances p (s.step (.turn i)).1 (route.moments s (.turn i)) := by
  have hidle : (s.turn i).1 = s → route.Advances p (s.turn i).1 [] := by
    intro heq
    rw [heq]
    exact advances_of_still hp hs.registered hs.followers rfl rfl rfl
  cases hf : s.followers[i]? with
  | none =>
    simp only [moments, hf]
    exact hidle (by simp [Scene.turn, hf])
  | some f =>
    obtain ⟨b, k, isOver⟩ := f
    cases isOver with
    | true =>
      simp only [moments, hf, Option.some.injEq, Follower.mk.injEq, Bool.true_eq_false, and_false,
        if_false]
      exact hidle (by simp [Scene.turn, hf])
    | false =>
      by_cases hk : k = route.slot
      . have hb : b = route.binding := (hs.followers _ (List.mem_of_getElem? hf)).2 hk
        subst hk hb
        simp only [moments, hf, if_true]
        exact advances_turn_self hs hp hsource i hf
      . simp only [moments, hf, Option.some.injEq, Follower.mk.injEq, hk, false_and, and_false,
          if_false]
        exact advances_turn_other hs hp i b k hf hk

theorem queueAt_stepFile (route : Route) (s : Scene) (a : FileAction) (ha : a.Spares route.feed) :
    queueAt s.channels route.feed <+: queueAt (s.stepFile a).1.channels route.feed :=
  FileSource.queueAt_step { s.files with channels := s.channels } a route.feed ha

/--
Whatever happens in a scene goes along with a step on the way of events.
-/
theorem advances_step (hs : route.Open s) (hp : route.Shows s p)
    (hends : p.slot.hasSource = true ∧ p.slot.hasReader = true) (a : SceneAction)
    (ha : a.Spares route) : route.Advances p (s.step a).1 (route.moments s a) := by
  cases a with
  | dispatcher a =>
    cases a with
    | receive i => exact advances_receive hs hp hends.2 i
    | _ => exact advances_dispatcher hs hp _ (by simp) ha
  | file a =>
    exact advances_of_prefix hp hs.registered hs.followers rfl rfl (queueAt_stepFile route s a ha)
  | openFile start call =>
    cases hr : s.files.channel? call with
    | some r =>
      have hstep : (s.step (.openFile start call)).1 = (s.stepDispatcher (.opened start r)).1 := by
        simp only [Scene.step, hr]
      simp only [moments, hstep]
      exact advances_dispatcher hs hp (.opened start r) (by simp) trivial
    | none =>
      have hstep : (s.step (.openFile start call)).1 = s := by simp only [Scene.step, hr]
      simp only [moments, hstep]
      exact advances_of_prefix hp hs.registered hs.followers rfl rfl (List.prefix_refl _)
  | renew items =>
    have hprefix : queueAt s.channels route.feed <+:
        queueAt (s.step (.renew items)).1.channels route.feed := by
      simp only [Scene.step, Scene.renew]
      split
      . exact queueAt_stepFile route s .drop trivial
      . exact List.prefix_refl _
    refine advances_of_prefix hp ?_ ?_ ?_ ?_ hprefix
    all_goals
      simp only [Scene.step, Scene.renew]
      split
    . exact hs.registered
    . exact hs.registered
    . exact hs.followers
    . exact hs.followers
    . rfl
    . rfl
    . rfl
    . rfl
  | bind b =>
    have hlt := (List.getElem?_eq_some_iff.1 hp.binding).1
    refine advances_of_prefix hp hs.registered hs.followers rfl ?_ (List.prefix_refl _)
    exact List.getElem?_append_left hlt
  | apply i r =>
    have hstep : (s.step (.apply i r)).1.bindings[route.binding]? = s.bindings[route.binding]? ∧
        (s.step (.apply i r)).1.dispatcher = s.dispatcher ∧
        (s.step (.apply i r)).1.followers = s.followers := by
      simp only [Scene.step, Scene.apply]
      split
      . exact ⟨List.getElem?_set_ne ha, rfl, rfl⟩
      . exact ⟨rfl, rfl, rfl⟩
    obtain ⟨hbinding, hdispatcher, hfollowers⟩ := hstep
    refine advances_of_prefix hp ?_ ?_ ?_ hbinding ?_
    . rw [hdispatcher]
      exact hs.registered
    . rw [hfollowers]
      exact hs.followers
    . rw [hdispatcher]
    . apply prefix_of_eq
      rw [Scene.channels, Scene.channels, hdispatcher]
  | follow i k =>
    refine advances_of_prefix hp hs.registered ?_ rfl rfl (List.prefix_refl _)
    intro f hf
    rcases List.mem_append.1 hf with hf | hf
    . exact hs.followers f hf
    . rw [List.mem_singleton.1 hf]
      exact ha
  | turn i => exact advances_turn hs hp hends.1 i

/--
Events flow on an open way as the law says.
-/
structure Flows (route : Route) (p₀ : Pipe) (s : Scene) (h : List Moment) : Prop where
  way : route.Open s
  law : ∃ p, route.Shows s p ∧ p₀.Law p h

theorem Flows.step {p₀ : Pipe} {h : List Moment} (hs : route.Flows p₀ s h) (a : SceneAction)
    (ha : route.Keeps s a) : route.Flows p₀ (s.step a).1 (h ++ route.moments s a) := by
  obtain ⟨p, hp, hlaw⟩ := hs.law
  obtain ⟨hregistered, hfollowers, p', hstep, hp'⟩ := advances_step hs.way hp hlaw.ends a ha.2
  exact ⟨⟨s.oneLoop_step a hs.way.one, ha.1, hregistered, hfollowers⟩, p', hp', hlaw.step hstep⟩

theorem Flows.run {p₀ : Pipe} (hs : route.Flows p₀ s []) (as : List SceneAction)
    (has : route.Kept s as) : route.Flows p₀ (s.run as) (route.history s as) := by
  have hrun := Run.invariant (fun (s : Scene) a => (s.step a).1) route.moments route.Keeps
    (route.Flows p₀) (fun _ _ a ha hs => hs.step a ha) as s [] hs has
  simpa [history, Scene.run] using hrun

end Route

namespace Scene

/--
Whether no loop and no follower can go on.
-/
def IsSettled (s : Scene) : Prop := s.wokenLoops = [] ∧ s.wokenFollowers = []

instance (s : Scene) : Decidable s.IsSettled := inferInstanceAs (Decidable (_ ∧ _))

variable {s : Scene} {route : Route} {p : Pipe}

theorem queue_eq_nil_of_settled (hsettled : s.IsSettled) (hs : route.Open s)
    (hp : route.Shows s p) : p.queue = [] := by
  have hnone := List.filter_eq_nil_iff.1 hsettled.1 route.loop
    (List.mem_range.2 (List.getElem?_eq_some_iff.1 hs.loop).1)
  rw [← hp.queue, queueAt]
  cases hc : s.channels[route.feed]? with
  | none => rfl
  | some c =>
    simp only [hs.loop, hc, Option.any_some, Bool.or_eq_true, Bool.not_eq_true', not_or] at hnone
    simpa using hnone.1

theorem fresh?_eq_none_of_settled (hsettled : s.IsSettled) (hp : route.Shows s p)
    (hf : ⟨route.binding, route.slot, false⟩ ∈ s.followers) : p.slot.fresh? = none := by
  obtain ⟨i, hi⟩ := List.mem_iff_getElem?.1 hf
  have hnone := List.filter_eq_nil_iff.1 hsettled.2 i
    (List.mem_range.2 (List.getElem?_eq_some_iff.1 hi).1)
  simp only [hi, hp.slot, Option.any_some, Bool.or_eq_true, not_or, Bool.not_eq_true] at hnone
  rw [Slot.fresh?, hnone.1]
  rfl

/--
A binding follows a subscription to which nothing was handed yet, while the loop of the dispatcher
runs. Its setting is always that of the last event that can be read among those that the follower has
found, which are the last ones of the bursts. Once everything has settled, the bursts are all events
that were in the feed or came into it: if none of these can be read, the setting is what it was, and
if the last one that can be read is the last one of its burst, the setting is read from it.
-/
theorem followed_binding_takes_last_of_bursts (key : String) (past as : List SceneAction)
    (route : Route) (b₀ : Binding)
    (hloop : ((Scene.start key).run past).dispatcher.loops[route.loop]? =
      some ⟨route.feed, .running⟩)
    (hslot : ((Scene.start key).run past).dispatcher.slots[route.slot]? = some (.empty true))
    (hbinding : ((Scene.start key).run past).bindings[route.binding]? = some b₀)
    (hfollowers : ∀ f ∈ ((Scene.start key).run past).followers,
      f.binding = route.binding ↔ f.slot = route.slot)
    (has : route.Kept ((Scene.start key).run past) as) :
    let s₀ := (Scene.start key).run past
    let s := s₀.run as
    let h := route.history s₀ as
    let events := queueAt s₀.channels route.feed ++ sentEvents h
    ∃ b, s.bindings[route.binding]? = some b ∧ b.current = b₀.after (foundEvents h) ∧
      (⟨route.binding, route.slot, false⟩ ∈ s.followers → s.IsSettled →
        (bursts h).seen.flatten = events ∧
        ((∀ r ∈ events, b₀.decoded? r = none) → b.current = b₀.current) ∧
        ∀ earlier burst r later v, (bursts h).seen = earlier ++ (burst ++ [r]) :: later →
          b₀.decoded? r = some v → (∀ r ∈ later.flatten, b₀.decoded? r = none) → b.current = v) := by
  intro s₀ s h events
  obtain ⟨hone, hlisted⟩ := oneLoop_and_listed_of_run key past
  have hstart : route.Flows ⟨queueAt s₀.channels route.feed, .empty true, b₀⟩ s₀ [] :=
    ⟨⟨hone, hloop, hlisted _ _ hslot rfl rfl, hfollowers⟩, _, ⟨rfl, hslot, hbinding⟩,
      Pipe.law_start _ rfl⟩
  obtain ⟨hway, p, hp, hlaw⟩ := hstart.run as has
  have hcurrent : p.binding.current = b₀.after (foundEvents h) := by
    rw [hlaw.binding]
  refine ⟨p.binding, hp.binding, hcurrent, ?_⟩
  intro hf hsettled
  have hflow := hlaw.flow
  have hfresh : (bursts h).fresh = [] := by
    rw [← List.getLast?_eq_none_iff, ← hlaw.slot]
    exact fresh?_eq_none_of_settled hsettled hp hf
  rw [queue_eq_nil_of_settled hsettled hway hp, hfresh, List.append_nil, List.append_nil] at hflow
  have hfound : ∀ bs : List (List Response), (∀ r ∈ bs.flatten, b₀.decoded? r = none) →
      ∀ r ∈ bs.filterMap List.getLast?, b₀.decoded? r = none := by
    intro bs hbs r hr
    obtain ⟨burst, hburst, hlast⟩ := List.mem_filterMap.1 hr
    exact hbs r (List.mem_flatten.2 ⟨burst, hburst, List.mem_of_getLast? hlast⟩)
  refine ⟨hflow, ?_, ?_⟩
  . intro hnone
    rw [hcurrent, foundEvents, Binding.after_of_none]
    exact hfound _ (hflow ▸ hnone)
  . intro earlier burst r later v hseen hr hlater
    have hsplit : foundEvents h =
        earlier.filterMap List.getLast? ++ [r] ++ later.filterMap List.getLast? := by
      simp [foundEvents, hseen]
    rw [hcurrent, hsplit, Binding.after_append_of_none _ _ _ (hfound later hlater),
      Binding.after_concat, hr]
    rfl

/--
A binding with the setting `false` follows the only subscription of a dispatcher that was started.
-/
def followed : List SceneAction :=
  [.bind ⟨"flags", .json, .free, .free (.bool false)⟩, .dispatcher .subscribe, .follow 0 0,
   .dispatcher (.makeChannel 16), .dispatcher .start, .dispatcher (.acquire 0),
   .dispatcher (.opened 0 (.ok 0))]

/--
Five events in two bursts: a text that can be read is the last of the first one, and the second one
has nothing that can be read.
-/
def eventsInBursts : List SceneAction :=
  [.dispatcher (.send 0 .deleted), .dispatcher (.send 0 ⟨"null", .put⟩),
   .dispatcher (.receive 0), .dispatcher (.send 0 ⟨"true", .put⟩), .dispatcher (.receive 0),
   .dispatcher (.receive 0), .turn 0, .dispatcher (.send 0 ⟨"tru", .put⟩), .dispatcher (.receive 0),
   .dispatcher (.send 0 .deleted), .dispatcher (.receive 0), .turn 0]

theorem eventsInBursts_kept :
    Route.Kept ⟨0, 0, 0, 0⟩ ((Scene.start "flags").run followed) eventsInBursts := by
  repeat' constructor

theorem eventsInBursts_set_binding :
    let s := ((Scene.start "flags").run followed).run eventsInBursts
    s.IsSettled ∧ ∃ b, s.bindings[0]? = some b ∧ b.current = .free (.bool true) := by
  intro s
  have hsettled : s.IsSettled := by decide +kernel
  obtain ⟨b, hb, _, hlast⟩ := followed_binding_takes_last_of_bursts "flags" followed eventsInBursts
    ⟨0, 0, 0, 0⟩ ⟨"flags", .json, .free, .free (.bool false)⟩ rfl rfl rfl (by decide +kernel)
    eventsInBursts_kept
  obtain ⟨_, _, hset⟩ := hlast (by decide +kernel) hsettled
  refine ⟨hsettled, b, hb, ?_⟩
  refine hset [] [.deleted, ⟨"null", .put⟩] ⟨"true", .put⟩ [[⟨"tru", .put⟩, .deleted]]
    (.free (.bool true)) (by decide +kernel) rfl ?_
  intro r hr
  simp only [List.flatten_cons, List.flatten_nil, List.append_nil, List.mem_cons,
    List.not_mem_nil, or_false] at hr
  rcases hr with rfl | rfl <;> rfl

/--
A deletion in the same burst hides a setting: the follower never finds the event before it.
-/
theorem deletion_hides_setting_of_its_burst :
    let as : List SceneAction :=
      [.dispatcher (.send 0 ⟨"true", .put⟩), .dispatcher (.send 0 .deleted),
       .dispatcher (.receive 0), .dispatcher (.receive 0), .turn 0]
    let b₀ : Binding := ⟨"flags", .json, .free, .free (.bool false)⟩
    let s₀ := (Scene.start "flags").run followed
    let s := s₀.run as
    let h := Route.history ⟨0, 0, 0, 0⟩ s₀ as
    s₀.bindings[0]? = some b₀ ∧ s.followers = [⟨0, 0, false⟩] ∧ s.IsSettled ∧
      sentEvents h = [⟨"true", .put⟩, .deleted] ∧
      (s.bindings[0]?).map (·.current) = some (.free (.bool false)) ∧
      b₀.after (sentEvents h) = .free (.bool true) := by
  intro as b₀ s₀ s h
  have hsent : sentEvents h = [⟨"true", .put⟩, .deleted] := by decide +kernel
  refine ⟨rfl, rfl, by decide +kernel, hsent, rfl, ?_⟩
  rw [hsent]
  rfl

end Scene

end Upkeep.Config
