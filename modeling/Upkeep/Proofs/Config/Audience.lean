import Mathlib.Algebra.BigOperators.Group.Finset.Basic
import Mathlib.Algebra.BigOperators.Group.Finset.Piecewise
import Mathlib.Data.List.Induction
import Mathlib.Data.List.Nodup
import Mathlib.Data.List.TakeWhile
import Upkeep.Proofs.Config.Supply

/-!
This module contains the proof that those who listen to a hub do not get in each other's way. Each
of them gets what is published from the moment when it joins, in order and once, but for what finds
its own channel full.
-/

namespace Upkeep.Config

/--
Whether a channel misses what is sent into it now: its receiver is there, but there is no room.
-/
def missesAt (cs : List (Channel α)) (i : Nat) : Bool := hasReceiverAt cs i && !hasRoomAt cs i

theorem missesAt_modify_of_ne (cs : List (Channel α)) (f : Channel α → Channel α) {i j : Nat}
    (h : i ≠ j) : missesAt (cs.modify i f) j = missesAt cs j := by
  have hsame : (cs.modify i f)[j]? = cs[j]? := by simp [h]
  rw [missesAt, missesAt, hasReceiverAt, hasReceiverAt, hasRoomAt, hasRoomAt, hsame]

theorem Channel.hasReceiver_receive (c : Channel α) :
    c.receive.1.hasReceiver = c.hasReceiver := by
  unfold receive
  split <;> rfl

namespace Hub

theorem missed_offer (key : String) (x : α) (h : Hub) (cs : List (Channel α)) (i : Nat) :
    (h.offer key x cs i).1.missed = h.missed + if missesAt cs i then 1 else 0 := by
  unfold offer
  cases hc : cs[i]? with
  | none => simp [missesAt, hasReceiverAt, hc]
  | some c =>
    obtain ⟨hr, hsend⟩ | ⟨hr, ⟨hroom, hsend⟩ | ⟨hroom, hsend⟩⟩ := c.send_cases x <;>
      simp [missesAt, hasReceiverAt, hasRoomAt, hc, hr, hsend, join]
    . omega
    . omega

theorem foldl_offer_missed (key : String) (x : α)
    {f : Hub × List (Channel α) × List Event → Nat → Hub × List (Channel α) × List Event}
    (hhub : ∀ s i, (f s i).1 = (s.1.offer key x s.2.1 i).1)
    (hchannels : ∀ s i, (f s i).2.1 = (s.1.offer key x s.2.1 i).2.1)
    (is : List Nat) (hnodup : is.Nodup) (s : Hub × List (Channel α) × List Event) :
    (is.foldl f s).1.missed = s.1.missed + is.countP (missesAt s.2.1) := by
  induction is generalizing s with
  | nil => rfl
  | cons i is ih =>
    rw [List.nodup_cons] at hnodup
    -- an offer to one channel leaves it open which of the others have room
    have hothers : is.countP (missesAt (f s i).2.1) = is.countP (missesAt s.2.1) := by
      apply List.countP_congr
      intro j hj
      have hne : i ≠ j := by
        rintro rfl
        exact hnodup.1 hj
      rw [hchannels, (s.1.offer_fst key x s.2.1 i).2, missesAt_modify_of_ne _ _ hne]
    rw [List.foldl_cons, ih hnodup.2, hothers, hhub, missed_offer, List.countP_cons]
    omega

theorem missed_publish (key : String) (x : α) (h : Hub) (cs : List (Channel α))
    (hnodup : h.members.Nodup) :
    (h.publish key x cs).1.missed = h.missed + h.members.countP (missesAt cs) := by
  unfold publish
  refine foldl_offer_missed key x ?_ ?_ h.members hnodup ({ h with members := [] }, cs, [])
  . intro s i
    rfl
  . intro s i
    rfl

end Hub

/--
The value that a receiver is told of.
-/
def Polled.value? : Polled α → Option α
  | .value x => some x
  | _ => none

/--
A hub with all channels that were made for it. The hub lists only channels that there are, each of
them once, and all those whose receiver is there.
-/
structure Audience (α : Type u) where
  hub : Hub
  channels : List (Channel α)
  nodup : hub.members.Nodup
  exist : ∀ i ∈ hub.members, i < channels.length
  listed : ∀ i, hasReceiverAt channels i = true → i ∈ hub.members

/--
Something that happens to a hub and to those who listen to it.
-/
inductive AudienceAction (α : Type u) where
  | join (capacity : Nat)
  | publish (key : String) (x : α)
  | receive (channel : Nat)
  | dropReceiver (channel : Nat)
  deriving DecidableEq

/--
What an action publishes.
-/
def AudienceAction.published? : AudienceAction α → Option α
  | .publish _ x => some x
  | _ => none

/--
Whether the receiver of a channel is still there after an action.
-/
def AudienceAction.stays (i : Nat) : AudienceAction α → Bool
  | .dropReceiver j => j ≠ i
  | _ => true

/--
Whether an action is not that of another receiver.
-/
def AudienceAction.concerns (i : Nat) : AudienceAction α → Bool
  | .receive j | .dropReceiver j => j = i
  | _ => true

namespace Audience

def empty : Audience α where
  hub := .empty
  channels := []
  nodup := List.nodup_nil
  exist := by simp [Hub.empty]
  listed := by simp [hasReceiverAt]

theorem hasReceiverAt_concat (cs : List (Channel α)) (capacity i : Nat) :
    hasReceiverAt (cs ++ [.empty capacity]) i = (i == cs.length || hasReceiverAt cs i) := by
  rw [hasReceiverAt, getElem?_concat]
  split
  . next hi => simp [hi, Channel.empty]
  . next hi => simp [hi, hasReceiverAt]

/--
One more joins, with a channel of its own.
-/
def join (s : Audience α) (capacity : Nat) : Audience α where
  hub := s.hub.join s.channels.length
  channels := s.channels ++ [.empty capacity]
  nodup := by
    have hfresh : s.channels.length ∉ s.hub.members := fun h => Nat.lt_irrefl _ (s.exist _ h)
    rw [Hub.join, List.nodup_append]
    refine ⟨s.nodup, by simp, ?_⟩
    rintro i hi j hj rfl
    exact hfresh (List.mem_singleton.1 hj ▸ hi)
  exist := by
    intro i hi
    rw [List.length_append]
    rcases List.mem_append.1 hi with hi | hi
    . exact Nat.lt_succ_of_lt (s.exist i hi)
    . exact Nat.lt_succ_of_le (Nat.le_of_eq (List.mem_singleton.1 hi))
  listed := by
    intro i hi
    rw [hasReceiverAt_concat, Bool.or_eq_true, beq_iff_eq] at hi
    rcases hi with hi | hi
    . exact List.mem_append_right _ (List.mem_singleton.2 hi)
    . exact List.mem_append_left _ (s.listed i hi)

theorem hasReceiverAt_publish (s : Audience α) (key : String) (x : α) :
    hasReceiverAt (s.hub.publish key x s.channels).2.1 = hasReceiverAt s.channels := by
  rw [(s.hub.publish_fst key x s.channels).2]
  generalize s.hub.members = is
  generalize s.channels = cs
  induction is generalizing cs with
  | nil => rfl
  | cons i is ih => rw [List.foldl_cons, ih, hasReceiverAt_modify_send]

/--
An event is handed to all channels of the hub.
-/
def publish (s : Audience α) (key : String) (x : α) : Audience α where
  hub := (s.hub.publish key x s.channels).1
  channels := (s.hub.publish key x s.channels).2.1
  nodup := by
    rw [(s.hub.publish_fst key x s.channels).1]
    exact s.nodup.filter _
  exist := by
    intro i hi
    have hlength := s.hub.length_pass key (some x) s.channels
    exact Nat.lt_of_lt_of_eq (s.exist i (s.hub.members_pass_subset key (some x) _ hi)) hlength.symm
  listed := by
    intro i hi
    rw [hasReceiverAt_publish] at hi
    rw [(s.hub.publish_fst key x s.channels).1]
    exact List.mem_filter.2 ⟨s.listed i hi, hi⟩

theorem hasReceiverAt_of_modify {cs : List (Channel α)} {f : Channel α → Channel α} {i j : Nat}
    (hf : ∀ c, (f c).hasReceiver = true → c.hasReceiver = true)
    (h : hasReceiverAt (cs.modify i f) j = true) : hasReceiverAt cs j = true := by
  rw [hasReceiverAt, List.getElem?_modify] at h
  rw [hasReceiverAt]
  cases hc : cs[j]? with
  | none => simp [hc] at h
  | some c =>
    rw [hc] at h
    by_cases hij : i = j
    . exact hf c (by simpa [hij] using h)
    . simpa [hij] using h

/--
Somebody does something with a channel, by which no receiver comes back.
-/
def modify (s : Audience α) (i : Nat) (f : Channel α → Channel α)
    (hf : ∀ c, (f c).hasReceiver = true → c.hasReceiver = true) : Audience α where
  hub := s.hub
  channels := s.channels.modify i f
  nodup := s.nodup
  exist := by simpa using s.exist
  listed := fun j hj => s.listed j (hasReceiverAt_of_modify hf hj)

def step (s : Audience α) : AudienceAction α → Audience α
  | .join capacity => s.join capacity
  | .publish key x => s.publish key x
  | .receive i => s.modify i (fun c => c.receive.1) fun c hr => c.hasReceiver_receive ▸ hr
  | .dropReceiver i => s.modify i Channel.dropReceiver fun _ hr => absurd hr Bool.false_ne_true

/--
What is published while the receiver of a channel is there, and whether the channel has room for it.
-/
structure Offer (α : Type u) where
  value : α
  hasRoom : Bool
  deriving DecidableEq

/--
The values for which there is room.
-/
def admitted (os : List (Offer α)) : List α := (os.filter (·.hasRoom)).map (·.value)

/--
The number of values for which there is no room.
-/
def turnedAway (os : List (Offer α)) : Nat := os.countP fun o => !o.hasRoom

/--
What an action offers to the receiver of a channel.
-/
def offer (i : Nat) (s : Audience α) : AudienceAction α → List (Offer α)
  | .publish _ x => if hasReceiverAt s.channels i then [⟨x, hasRoomAt s.channels i⟩] else []
  | _ => []

/--
What the receiver of a channel gets in an action.
-/
def get (i : Nat) (s : Audience α) : AudienceAction α → List α
  | .receive j =>
    if j = i then ((s.channels[i]?).bind fun c => c.receive.2.value?).toList else []
  | _ => []

/--
The audience after a series of actions, what was offered to the receiver of a channel in it, and
what that receiver got.
-/
def run (as : List (AudienceAction α)) : Audience α := as.foldl step empty

def offers (i : Nat) (as : List (AudienceAction α)) : List (Offer α) :=
  Run.history step (offer i) empty as

def received (i : Nat) (as : List (AudienceAction α)) : List α :=
  Run.history step (get i) empty as

theorem run_concat (as : List (AudienceAction α)) (a : AudienceAction α) :
    run (as ++ [a]) = (run as).step a := by
  simp [run]

theorem offers_concat (i : Nat) (as : List (AudienceAction α)) (a : AudienceAction α) :
    offers i (as ++ [a]) = offers i as ++ (run as).offer i a := by
  simp [offers, Run.history_append, Run.history, run]

theorem received_concat (i : Nat) (as : List (AudienceAction α)) (a : AudienceAction α) :
    received i (as ++ [a]) = received i as ++ (run as).get i a := by
  simp [received, Run.history_append, Run.history, run]

/--
What an action does to the channel with a number.
-/
def follow (i : Nat) (c : Channel α) : AudienceAction α → Channel α
  | .join _ => c
  | .publish _ x => (c.send x).1
  | .receive j => if j = i then c.receive.1 else c
  | .dropReceiver j => if j = i then c.dropReceiver else c

/--
The channel that an action makes.
-/
def made? : AudienceAction α → Option (Channel α)
  | .join capacity => some (.empty capacity)
  | _ => none

theorem send_of_not_hasReceiver {c : Channel α} (hc : c.hasReceiver = false) (x : α) :
    (c.send x).1 = c := by
  simp [Channel.send, hc]

theorem getElem?_publish (s : Audience α) (key : String) (x : α) (i : Nat) :
    (s.publish key x).channels[i]? = (s.channels[i]?).map fun c => (c.send x).1 := by
  have hcount := List.nodup_iff_count_le_one.1 s.nodup i
  refine (s.hub.getElem?_pass key (some x) s.channels hcount).trans ?_
  split
  . rfl
  . next hnot =>
    -- a channel that the hub does not list has no receiver and takes nothing
    cases hc : s.channels[i]? with
    | none => rfl
    | some c =>
      have hnone : c.hasReceiver = false := by
        rw [← Bool.not_eq_true]
        intro hreceiver
        exact hnot (s.listed i (by simp [hasReceiverAt, hc, hreceiver]))
      rw [Option.map_some, send_of_not_hasReceiver hnone]

theorem getElem?_modify (s : Audience α) (j : Nat) (f : Channel α → Channel α) (hf) (i : Nat) :
    (s.modify j f hf).channels[i]? = (s.channels[i]?).map fun c => if j = i then f c else c := by
  refine (List.getElem?_modify ..).trans ?_
  split <;> simp

/--
What an action does to a channel depends on this channel alone.
-/
theorem getElem?_step (s : Audience α) (a : AudienceAction α) (i : Nat) :
    (s.step a).channels[i]? =
      if i = s.channels.length then made? a else (s.channels[i]?).map (follow i · a) := by
  by_cases hi : i = s.channels.length
  . have hnone : s.channels[i]? = none := List.getElem?_eq_none (Nat.le_of_eq hi.symm)
    rw [if_pos hi]
    cases a with
    | join capacity => exact (getElem?_concat s.channels _ i).trans (if_pos hi)
    | publish key x => simp [step, getElem?_publish, hnone, made?]
    | receive j | dropReceiver j =>
      rw [step, getElem?_modify, hnone]
      rfl
  . rw [if_neg hi]
    cases a with
    | join capacity =>
      refine (getElem?_concat s.channels _ i).trans ?_
      simp [hi, follow]
    | publish key x => exact s.getElem?_publish key x i
    | receive j | dropReceiver j =>
      rw [step, getElem?_modify]
      rfl

theorem length_step (s : Audience α) (a : AudienceAction α) :
    (s.step a).channels.length = s.channels.length + (made? a).toList.length := by
  cases a with
  | join capacity => simp [step, join, made?]
  | publish key x => exact s.hub.length_pass key (some x) s.channels
  | receive j | dropReceiver j => simp [step, modify, made?]

theorem length_le_step (s : Audience α) (a : AudienceAction α) :
    s.channels.length ≤ (s.step a).channels.length := by
  rw [length_step]
  exact Nat.le_add_right _ _

theorem offer_of_length_le {s : Audience α} {i : Nat} (hi : s.channels.length ≤ i)
    (a : AudienceAction α) : s.offer i a = [] ∧ s.get i a = [] := by
  have hnone : s.channels[i]? = none := List.getElem?_eq_none hi
  cases a <;> simp [offer, get, hasReceiverAt, hnone]

theorem offers_of_length_le {i : Nat} (as : List (AudienceAction α))
    (hi : (run as).channels.length ≤ i) : offers i as = [] ∧ received i as = [] := by
  induction as using List.reverseRecOn with
  | nil => exact ⟨rfl, rfl⟩
  | append_singleton as a ih =>
    rw [run_concat] at hi
    have hbefore := Nat.le_trans ((run as).length_le_step a) hi
    obtain ⟨hoffer, hget⟩ := offer_of_length_le hbefore a
    rw [offers_concat, received_concat, hoffer, hget, List.append_nil, List.append_nil]
    exact ih hbefore

theorem admitted_append (os ps : List (Offer α)) :
    admitted (os ++ ps) = admitted os ++ admitted ps := by
  simp [admitted]

theorem values_offer (i : Nat) (s : Audience α) (a : AudienceAction α) :
    (s.offer i a).map (·.value) =
      if hasReceiverAt s.channels i then a.published?.toList else [] := by
  cases a with
  | publish key x =>
    simp only [offer]
    split <;> rfl
  | _ => simp [offer, AudienceAction.published?]

theorem hasReceiver_follow (i : Nat) (c : Channel α) (a : AudienceAction α) :
    (follow i c a).hasReceiver = (c.hasReceiver && a.stays i) := by
  cases a with
  | join capacity => simp [follow, AudienceAction.stays]
  | publish key x => simp [follow, AudienceAction.stays, c.hasReceiver_send]
  | receive j =>
    by_cases hj : j = i <;> simp [follow, AudienceAction.stays, hj, c.hasReceiver_receive]
  | dropReceiver j =>
    by_cases hj : j = i <;> simp [follow, AudienceAction.stays, hj, Channel.dropReceiver]

theorem capacity_follow (i : Nat) (c : Channel α) (a : AudienceAction α) :
    (follow i c a).capacity = c.capacity := by
  cases a with
  | join capacity => rfl
  | publish key x =>
    obtain ⟨-, hsend⟩ | ⟨-, ⟨-, hsend⟩ | ⟨-, hsend⟩⟩ := c.send_cases x <;> simp [follow, hsend]
  | receive j =>
    simp only [follow, Channel.receive]
    split
    . split <;> rfl
    . rfl
  | dropReceiver j =>
    simp only [follow, Channel.dropReceiver]
    split <;> rfl

/--
What the receiver of a channel got, with what is still queued for it, is what there was room for.
-/
structure Serves (c : Channel α) (os : List (Offer α)) (rs : List α) : Prop where
  order : rs ++ c.queue <+: admitted os
  complete : c.hasReceiver = true → rs ++ c.queue = admitted os
  gone : c.hasReceiver = false → c.queue = []

theorem Serves.step {s : Audience α} {i : Nat} {c : Channel α} {os : List (Offer α)} {rs : List α}
    (hserves : Serves c os rs) (hc : s.channels[i]? = some c) (a : AudienceAction α) :
    Serves (follow i c a) (os ++ s.offer i a) (rs ++ s.get i a) := by
  have hstill : Serves c (os ++ []) (rs ++ []) := by
    rw [List.append_nil, List.append_nil]
    exact hserves
  cases a with
  | join capacity => exact hstill
  | publish key x =>
    have hget : s.get i (.publish key x) = [] := rfl
    cases hr : c.hasReceiver with
    | false =>
      have hoffer : s.offer i (.publish key x) = [] := by simp [offer, hasReceiverAt, hc, hr]
      rw [hoffer, hget, follow, send_of_not_hasReceiver hr]
      exact hstill
    | true =>
      have hoffer : s.offer i (.publish key x) = [⟨x, decide (c.queue.length < c.capacity)⟩] := by
        simp [offer, hasReceiverAt, hasRoomAt, hc, hr]
      have hall : (rs ++ (c.send x).1.queue) =
          admitted (os ++ [⟨x, decide (c.queue.length < c.capacity)⟩]) := by
        rw [Channel.send_of_hasReceiver hr, admitted_append, ← hserves.complete hr,
          List.append_assoc]
        by_cases hroom : c.queue.length < c.capacity <;> simp [admitted, hroom]
      rw [hoffer, hget, List.append_nil, follow]
      refine ⟨prefix_of_eq hall.symm, fun _ => hall, ?_⟩
      intro hgone
      rw [c.hasReceiver_send, hr] at hgone
      cases hgone
  | receive j =>
    by_cases hj : j = i
    . subst hj
      have hget : s.get j (.receive j) = (c.receive.2.value?).toList := by simp [get, hc]
      have hqueue : rs ++ s.get j (.receive j) ++ c.receive.1.queue = rs ++ c.queue := by
        rw [hget, List.append_assoc]
        unfold Channel.receive
        split
        . next hq => rw [hq]; rfl
        . next hq => split <;> rw [hq] <;> rfl
      have hoffer : s.offer j (.receive j) = [] := rfl
      rw [hoffer, List.append_nil, follow, if_pos rfl]
      refine ⟨hqueue ▸ hserves.order, ?_, ?_⟩
      . intro hr
        rw [hqueue]
        exact hserves.complete (c.hasReceiver_receive ▸ hr)
      . intro hr
        have hempty := hserves.gone (c.hasReceiver_receive ▸ hr)
        simp [Channel.receive, hempty]
    . have hget : s.get i (.receive j) = [] := if_neg hj
      rw [hget, follow, if_neg hj]
      exact hstill
  | dropReceiver j =>
    have hoffer : s.offer i (.dropReceiver j) = [] := rfl
    have hget : s.get i (.dropReceiver j) = [] := rfl
    rw [hoffer, hget, follow]
    split
    . rw [List.append_nil, List.append_nil]
      refine ⟨?_, by simp [Channel.dropReceiver], fun _ => rfl⟩
      rw [Channel.dropReceiver, List.append_nil]
      exact (List.prefix_append _ _).trans hserves.order
    . exact hstill

/--
What is published while the receiver of a channel that was just made is there, and after it is gone.
-/
def heard (i : Nat) (after : List (AudienceAction α)) : List α :=
  (after.takeWhile (·.stays i)).filterMap AudienceAction.published?

def unheard (i : Nat) (after : List (AudienceAction α)) : List α :=
  (after.dropWhile (·.stays i)).filterMap AudienceAction.published?

theorem stays_of_published {a : AudienceAction α} {x : α} (ha : a.published? = some x) (i : Nat) :
    a.stays i = true := by
  cases a <;> simp [AudienceAction.published?, AudienceAction.stays] at ha ⊢

theorem heard_concat (i : Nat) (after : List (AudienceAction α)) (a : AudienceAction α) :
    heard i (after ++ [a]) =
      heard i after ++ if after.all (·.stays i) then a.published?.toList else [] := by
  rw [heard, heard, takeWhile_concat]
  by_cases hall : after.all (·.stays i) = true
  . rw [if_pos hall, if_pos hall, List.takeWhile_eq_self_iff.2 (List.all_eq_true.1 hall),
      List.filterMap_append]
    cases ha : a.published? with
    | none => cases hstays : a.stays i <;> simp [hstays, ha]
    | some x => simp [stays_of_published ha i, ha]
  . rw [if_neg hall, if_neg hall, List.append_nil]

theorem unheard_concat (i : Nat) (after : List (AudienceAction α)) (a : AudienceAction α) :
    unheard i (after ++ [a]) = [] ↔
      unheard i after = [] ∧ (after.all (·.stays i) = true ∨ a.published? = none) := by
  rw [unheard, unheard, List.dropWhile_append]
  by_cases hall : after.all (·.stays i) = true
  . have hnone := List.dropWhile_eq_nil_iff.2 (List.all_eq_true.1 hall)
    cases ha : a.published? with
    | none => cases hstays : a.stays i <;> simp [hnone, hstays, ha]
    | some x => simp [hnone, hall, stays_of_published ha i]
  . have hsome : after.dropWhile (·.stays i) ≠ [] :=
      fun hnone => hall (List.all_eq_true.2 (List.dropWhile_eq_nil_iff.1 hnone))
    simp [hsome, hall]

/--
A channel is in the hub until something is published that its receiver is not there for.
-/
theorem mem_members_step {s : Audience α} {i : Nat} (hi : i ≠ s.channels.length)
    (a : AudienceAction α) :
    i ∈ (s.step a).hub.members ↔
      i ∈ s.hub.members ∧ (hasReceiverAt s.channels i = true ∨ a.published? = none) := by
  cases a with
  | join capacity => simp [step, join, Hub.join, hi, AudienceAction.published?]
  | publish key x =>
    have hmembers := (s.hub.publish_fst key x s.channels).1
    simp [step, publish, hmembers, AudienceAction.published?]
  | receive j | dropReceiver j => simp [step, modify, AudienceAction.published?]

/--
What holds of a channel from the moment when it joins: what it is offered is all that is published
while its receiver is there, it serves its receiver, and the hub keeps it until it finds the
receiver gone.
-/
structure Attends (i capacity : Nat) (after as : List (AudienceAction α)) : Prop where
  channel : ∃ c, (run as).channels[i]? = some c ∧ c.capacity = capacity ∧
    c.hasReceiver = after.all (·.stays i) ∧ Serves c (offers i as) (received i as)
  offered : (offers i as).map (·.value) = heard i after
  listed : i ∈ (run as).hub.members ↔ unheard i after = []

theorem Attends.start (before : List (AudienceAction α)) (capacity : Nat) :
    Attends (run before).channels.length capacity [] (before ++ [.join capacity]) := by
  obtain ⟨hoffers, hreceived⟩ := offers_of_length_le before (Nat.le_refl _)
  have hchannel : (run (before ++ [.join capacity])).channels[(run before).channels.length]? =
      some (.empty capacity) := by
    rw [run_concat, getElem?_step, if_pos rfl]
    rfl
  have hoffer : offers (run before).channels.length (before ++ [.join capacity]) = [] := by
    rw [offers_concat, hoffers]
    rfl
  have hget : received (run before).channels.length (before ++ [.join capacity]) = [] := by
    rw [received_concat, hreceived]
    rfl
  refine ⟨⟨_, hchannel, rfl, rfl, ?_⟩, ?_, ?_⟩
  . rw [hoffer, hget]
    exact ⟨List.prefix_refl _, fun _ => rfl, fun _ => rfl⟩
  . rw [hoffer]
    rfl
  . rw [run_concat]
    simp [step, join, Hub.join, unheard]

theorem Attends.step {i capacity : Nat} {after as : List (AudienceAction α)}
    (h : Attends i capacity after as) (a : AudienceAction α) :
    Attends i capacity (after ++ [a]) (as ++ [a]) := by
  obtain ⟨c, hc, hcapacity, hreceiver, hserves⟩ := h.channel
  have hi : i ≠ (run as).channels.length :=
    Nat.ne_of_lt (List.getElem?_eq_some_iff.1 hc).1
  have hthere : hasReceiverAt (run as).channels i = after.all (·.stays i) := by
    simp [hasReceiverAt, hc, hreceiver]
  refine ⟨⟨follow i c a, ?_, ?_, ?_, ?_⟩, ?_, ?_⟩
  . rw [run_concat, getElem?_step, if_neg hi, hc]
    rfl
  . rw [capacity_follow, hcapacity]
  . rw [hasReceiver_follow, hreceiver, List.all_append, List.all_cons, List.all_nil, Bool.and_true]
  . rw [offers_concat, received_concat]
    exact hserves.step hc a
  . rw [offers_concat, List.map_append, values_offer, h.offered, hthere, heard_concat]
  . rw [run_concat, mem_members_step hi, h.listed, hthere, unheard_concat]

theorem attends (before : List (AudienceAction α)) (capacity : Nat)
    (after : List (AudienceAction α)) :
    Attends (run before).channels.length capacity after (before ++ .join capacity :: after) := by
  induction after using List.reverseRecOn with
  | nil => exact .start before capacity
  | append_singleton after a ih =>
    have hstep := ih.step a
    rw [List.append_assoc, List.cons_append] at hstep
    exact hstep

theorem turnedAway_offer (s : Audience α) (key : String) (x : α) (i : Nat) :
    turnedAway (s.offer i (.publish key x)) = if missesAt s.channels i then 1 else 0 := by
  cases hr : hasReceiverAt s.channels i <;> simp [offer, missesAt, turnedAway, hr]

/--
Those that miss what is published are all in the hub.
-/
theorem countP_members (s : Audience α) {n : Nat} (hn : s.channels.length ≤ n) :
    s.hub.members.countP (missesAt s.channels) =
      ((Finset.range n).filter fun i => missesAt s.channels i).card := by
  rw [List.countP_eq_length_filter, ← List.toFinset_card_of_nodup (s.nodup.filter _)]
  congr 1
  ext i
  simp only [List.mem_toFinset, List.mem_filter, Finset.mem_filter, Finset.mem_range]
  constructor
  . rintro ⟨hi, hmisses⟩
    exact ⟨Nat.lt_of_lt_of_le (s.exist i hi) hn, hmisses⟩
  . rintro ⟨-, hmisses⟩
    refine ⟨s.listed i ?_, hmisses⟩
    rw [missesAt, Bool.and_eq_true] at hmisses
    exact hmisses.1

theorem missed_step (s : Audience α) (a : AudienceAction α) {n : Nat} (hn : s.channels.length ≤ n) :
    (s.step a).hub.missed = s.hub.missed + ∑ i ∈ Finset.range n, turnedAway (s.offer i a) := by
  cases a with
  | publish key x =>
    have hmissed := s.hub.missed_publish key x s.channels s.nodup
    simp only [turnedAway_offer]
    rw [← Finset.card_filter, ← s.countP_members hn]
    exact hmissed
  | join capacity | receive j | dropReceiver j =>
    simp [step, join, modify, Hub.join, offer, turnedAway]

/--
What all channels together had no room for is what the hub has counted.
-/
theorem missed_run (as : List (AudienceAction α)) {n : Nat} (hn : (run as).channels.length ≤ n) :
    (run as).hub.missed = ∑ i ∈ Finset.range n, turnedAway (offers i as) := by
  induction as using List.reverseRecOn with
  | nil => simp [run, empty, Hub.empty, offers, Run.history, turnedAway]
  | append_singleton as a ih =>
    rw [run_concat] at hn
    have hbefore := Nat.le_trans ((run as).length_le_step a) hn
    have hsplit : ∀ i, turnedAway (offers i (as ++ [a])) =
        turnedAway (offers i as) + turnedAway ((run as).offer i a) := by
      intro i
      rw [offers_concat, turnedAway, List.countP_append]
      rfl
    simp only [run_concat, hsplit]
    rw [Finset.sum_add_distrib, ← ih hbefore, missed_step _ _ hbefore]

/--
All that the receiver of a channel depends on.
-/
def view (i : Nat) (s : Audience α) : Option (Channel α) × Nat :=
  (s.channels[i]?, s.channels.length)

theorem view_step_of_hidden {i : Nat} {s : Audience α} {a : AudienceAction α}
    (ha : a.concerns i = false) :
    (s.step a).view i = s.view i ∧ s.offer i a = [] ∧ s.get i a = [] := by
  cases a with
  | join capacity | publish key x => simp [AudienceAction.concerns] at ha
  | receive j | dropReceiver j =>
    have hj : j ≠ i := by simpa [AudienceAction.concerns] using ha
    simp [view, step, modify, hj, offer, get]

theorem view_step {i : Nat} {s t : Audience α} (a : AudienceAction α) (hst : s.view i = t.view i) :
    (s.step a).view i = (t.step a).view i ∧ s.offer i a = t.offer i a ∧ s.get i a = t.get i a := by
  obtain ⟨hchannel, hlength⟩ := Prod.mk.injEq .. ▸ hst
  have hreceiver : hasReceiverAt s.channels i = hasReceiverAt t.channels i := by
    rw [hasReceiverAt, hasReceiverAt, hchannel]
  have hroom : hasRoomAt s.channels i = hasRoomAt t.channels i := by
    rw [hasRoomAt, hasRoomAt, hchannel]
  refine ⟨?_, ?_, ?_⟩
  . rw [view, view, getElem?_step, getElem?_step, length_step, length_step, hchannel, hlength]
  . cases a <;> simp [offer, hreceiver, hroom]
  . cases a <;> simp [get, hchannel]

/--
What the receiver of a channel is offered and gets is the same in every two runs that differ only in
what the other receivers do.
-/
theorem received_of_filter_eq {i : Nat} {as bs : List (AudienceAction α)}
    (hsame : as.filter (·.concerns i) = bs.filter (·.concerns i)) :
    offers i as = offers i bs ∧ received i as = received i bs := by
  constructor
  . refine Run.history_of_filter_eq step (offer i) (view i) (·.concerns i) ?_ ?_ hsame rfl
    . intro s a ha
      exact ⟨(view_step_of_hidden ha).1, (view_step_of_hidden ha).2.1⟩
    . intro s t a ha hst
      exact ⟨(view_step a hst).1, (view_step a hst).2.1⟩
  . refine Run.history_of_filter_eq step (get i) (view i) (·.concerns i) ?_ ?_ hsame rfl
    . intro s a ha
      exact ⟨(view_step_of_hidden ha).1, (view_step_of_hidden ha).2.2⟩
    . intro s t a ha hst
      exact ⟨(view_step a hst).1, (view_step a hst).2.2⟩

/--
Whoever joins gets, in order and once, what is published from then on and finds room in its own
channel, whatever the other receivers do. The hub counts what found no room, and forgets a channel
with the first value that is published after its receiver is gone, not before.
-/
theorem receivers_do_not_interfere (before : List (AudienceAction α)) (capacity : Nat)
    (after : List (AudienceAction α)) :
    let i := (run before).channels.length
    let as := before ++ .join capacity :: after
    (offers i as).map (·.value) = heard i after ∧
    (∃ c, (run as).channels[i]? = some c ∧ c.capacity = capacity ∧
      received i as <+: admitted (offers i as) ∧
      (after.all (·.stays i) = true → received i as ++ c.queue = admitted (offers i as))) ∧
    (∀ bs : List (AudienceAction α), bs.filter (·.concerns i) = as.filter (·.concerns i) →
      offers i bs = offers i as ∧ received i bs = received i as) ∧
    (run as).hub.missed =
      ∑ j ∈ Finset.range (run as).channels.length, turnedAway (offers j as) ∧
    (i ∈ (run as).hub.members ↔ unheard i after = []) := by
  intro i as
  have hattends := attends before capacity after
  obtain ⟨c, hc, hcapacity, hreceiver, hserves⟩ := hattends.channel
  refine ⟨hattends.offered, ⟨c, hc, hcapacity, ?_, ?_⟩, ?_, ?_, hattends.listed⟩
  . exact (List.prefix_append _ _).trans hserves.order
  . intro hstays
    exact hserves.complete (hreceiver.trans hstays)
  . intro bs hsame
    exact received_of_filter_eq hsame
  . exact missed_run as (Nat.le_refl _)

-- the first receiver never looks, so that it misses the second value; the other one gets both
example :
    let as : List (AudienceAction Nat) :=
      [.join 1, .join 2, .publish "k" 1, .publish "k" 2, .receive 1, .receive 1]
    received 0 as = [] ∧ received 1 as = [1, 2] ∧ (run as).hub.missed = 1 ∧
      (run as).hub.members = [0, 1] := by
  decide

end Audience

end Upkeep.Config
