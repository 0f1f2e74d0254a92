import Upkeep.Config.Binding
import Upkeep.Config.Dispatcher

/-!
This module contains the way of events from a feed to a binding that follows it. A subscription keeps
only the newest event, so that of the events that arrive between two looks of the follower, a burst,
the binding sees the last one. Its setting is read from the last event among these that can be read.
-/

namespace Upkeep.Config

/--
Something that happens on the way of events: one comes into the feed, one is handed to the
subscription, or the follower looks at it.
-/
inductive Moment where
  | sent (r : Response)
  | arrived (r : Response)
  | looked
  deriving DecidableEq

def Moment.sent? : Moment → Option Response
  | .sent r => some r
  | _ => none

def sentEvents (h : List Moment) : List Response := h.filterMap Moment.sent?

/--
The events that arrived before each look of the follower since the last one, and those that arrived
since the last look.
-/
structure Bursts where
  seen : List (List Response)
  fresh : List Response
  deriving DecidableEq

def Bursts.add (b : Bursts) : Moment → Bursts
  | .sent _ => b
  | .arrived r => { b with fresh := b.fresh ++ [r] }
  | .looked => { seen := b.seen ++ [b.fresh], fresh := [] }

def bursts (h : List Moment) : Bursts := h.foldl Bursts.add ⟨[], []⟩

/--
The events that the follower has found: the last one of each burst.
-/
def foundEvents (h : List Moment) : List Response := (bursts h).seen.filterMap List.getLast?

@[simp]
theorem sentEvents_append (h ms : List Moment) :
    sentEvents (h ++ ms) = sentEvents h ++ sentEvents ms := by
  simp [sentEvents]

@[simp]
theorem sentEvents_map_sent (rs : List Response) : sentEvents (rs.map .sent) = rs := by
  induction rs with
  | nil => rfl
  | cons r rs ih => simpa [sentEvents, Moment.sent?] using ih

theorem sentEvents_concat (h : List Moment) (m : Moment) (hm : m.sent? = none) :
    sentEvents (h ++ [m]) = sentEvents h := by
  simp [sentEvents, hm]

theorem bursts_append_sent (h : List Moment) (rs : List Response) :
    bursts (h ++ rs.map .sent) = bursts h := by
  have hadd : ∀ b : Bursts, (rs.map Moment.sent).foldl Bursts.add b = b := by
    intro b
    induction rs with
    | nil => rfl
    | cons r rs ih => exact ih
  rw [bursts, List.foldl_append, hadd]
  rfl

theorem bursts_concat (h : List Moment) (m : Moment) : bursts (h ++ [m]) = (bursts h).add m := by
  simp [bursts]

/--
The event of a slot that was not yet looked at.
-/
def Slot.fresh? (s : Slot α) : Option α := if s.unseen then s.value else none

theorem Slot.poll_of_fresh (s : Slot α) (x : α) (h : s.fresh? = some x) :
    s.poll = ({ s with unseen := false }, .value x) := by
  unfold fresh? at h
  unfold poll
  split at h
  . next hunseen => rw [hunseen, h]
  . simp at h

theorem Slot.poll_of_not_fresh (s : Slot α) (h : s.fresh? = none) (hsource : s.hasSource = true) :
    s.poll = (s, .pending) := by
  unfold fresh? at h
  unfold poll
  split at h
  . next hunseen => rw [hunseen, h, hsource]; rfl
  . next hunseen =>
    rw [Bool.not_eq_true] at hunseen
    rw [hunseen, hsource]
    rfl

namespace Binding

/--
The setting that a response stands for. A deletion stands for none.
-/
def decoded? (b : Binding) (r : Response) : Option Setting :=
  match r.kind with
  | .del => none
  | _ => (b.shape.read b.encoding r.value).toOption

/--
The setting after responses were taken in: that of the last one that can be read.
-/
def after (b : Binding) (rs : List Response) : Setting :=
  ((rs.filterMap b.decoded?).getLast?).getD b.current

theorem follow_fst (b : Binding) (r : Response) :
    (b.follow r).1 = { b with current := (b.decoded? r).getD b.current } := by
  unfold follow apply decoded?
  cases r.kind with
  | del => rfl
  | null | put =>
    dsimp only
    cases b.shape.read b.encoding r.value <;> rfl

theorem after_concat (b : Binding) (rs : List Response) (r : Response) :
    b.after (rs ++ [r]) = (b.decoded? r).getD (b.after rs) := by
  unfold after
  rw [List.filterMap_append]
  cases hr : b.decoded? r <;> simp [hr]

theorem after_of_none (b : Binding) (rs : List Response) (h : ∀ r ∈ rs, b.decoded? r = none) :
    b.after rs = b.current := by
  rw [after, List.filterMap_eq_nil_iff.2 h]
  rfl

theorem after_append_of_none (b : Binding) (rs rs' : List Response)
    (h : ∀ r ∈ rs', b.decoded? r = none) : b.after (rs ++ rs') = b.after rs := by
  rw [after, List.filterMap_append, List.filterMap_eq_nil_iff.2 h, List.append_nil]
  rfl

end Binding

/--
What is on the way of events: the queue of the feed, the slot of the subscription, and the binding.
-/
structure Pipe where
  queue : List Response
  slot : Slot Response
  binding : Binding

/--
What can happen on the way of events.
-/
inductive Pipe.Step (p : Pipe) : Pipe → List Moment → Prop where
  | send (rs : List Response) : Step p { p with queue := p.queue ++ rs } (rs.map .sent)
  | arrive (r : Response) (rest : List Response) (hq : p.queue = r :: rest) :
    Step p { p with queue := rest, slot := p.slot.put r } [.arrived r]
  | find (r : Response) (hs : p.slot.fresh? = some r) :
    Step p
      { p with slot := { p.slot with unseen := false }, binding := (p.binding.follow r).1 }
      [.looked]
  | miss (hs : p.slot.fresh? = none) : Step p p [.looked]

/--
The law of the way of events. All that was in the feed or came into it is in the bursts or still in
the feed, in order; the slot has the last event of the newest burst; and the binding has taken in
the last events of the others.
-/
structure Pipe.Law (p₀ p : Pipe) (h : List Moment) : Prop where
  flow : (bursts h).seen.flatten ++ (bursts h).fresh ++ p.queue = p₀.queue ++ sentEvents h
  slot : p.slot.fresh? = (bursts h).fresh.getLast?
  ends : p.slot.hasSource = true ∧ p.slot.hasReader = true
  binding : p.binding = { p₀.binding with current := p₀.binding.after (foundEvents h) }

namespace Pipe

variable {p₀ p next : Pipe} {h ms : List Moment}

theorem law_start (p : Pipe) (hslot : p.slot = .empty true) : p.Law p [] := by
  refine ⟨?_, ?_, ?_, rfl⟩
  . simp [bursts, sentEvents]
  . simp [hslot, Slot.empty, Slot.fresh?, bursts]
  . simp [hslot, Slot.empty]

theorem Law.step (hp : p₀.Law p h) (hstep : p.Step next ms) : p₀.Law next (h ++ ms) := by
  cases hstep with
  | send rs =>
    refine ⟨?_, ?_, hp.ends, ?_⟩
    . rw [bursts_append_sent, sentEvents_append, sentEvents_map_sent, ← List.append_assoc, hp.flow,
        List.append_assoc]
    . rw [bursts_append_sent]
      exact hp.slot
    . rw [foundEvents, bursts_append_sent]
      exact hp.binding
  | arrive r rest hq =>
    have hflow := hp.flow
    refine ⟨?_, ?_, hp.ends, ?_⟩
    . rw [hq] at hflow
      rw [bursts_concat, sentEvents_concat _ _ rfl]
      simpa [Bursts.add] using hflow
    . rw [bursts_concat]
      simp [Bursts.add, Slot.put, Slot.fresh?]
    . rw [foundEvents, bursts_concat]
      exact hp.binding
  | find r hs =>
    refine ⟨?_, ?_, hp.ends, ?_⟩
    . rw [bursts_concat, sentEvents_concat _ _ rfl]
      simpa [Bursts.add] using hp.flow
    . rw [bursts_concat]
      simp [Bursts.add, Slot.fresh?]
    . have hlast : (bursts h).fresh.getLast? = some r := hp.slot.symm.trans hs
      have hfound : foundEvents (h ++ [.looked]) = foundEvents h ++ [r] := by
        simp [foundEvents, bursts_concat, Bursts.add, hlast]
      rw [hfound, Binding.after_concat, Binding.follow_fst, hp.binding]
      rfl
  | miss hs =>
    have hlast : (bursts h).fresh.getLast? = none := hp.slot.symm.trans hs
    refine ⟨?_, ?_, hp.ends, ?_⟩
    . rw [bursts_concat, sentEvents_concat _ _ rfl]
      simpa [Bursts.add] using hp.flow
    . rw [bursts_concat, hs]
      rfl
    . have hfound : foundEvents (h ++ [.looked]) = foundEvents h := by
        simp [foundEvents, bursts_concat, Bursts.add, hlast]
      rw [hfound]
      exact hp.binding

end Pipe

end Upkeep.Config
