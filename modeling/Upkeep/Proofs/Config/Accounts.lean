import Mathlib.Data.List.Nodup
import Upkeep.Proofs.Config.Delivery

/-!
This module contains the accounts of a dispatcher: what becomes of each subscription that it
registers, why its tallies agree with that, and why it does not matter in which order a value is
handed to the registered subscriptions.
-/

namespace Upkeep.Config

/--
What may become of a subscription. It is registered, is handed a value, is found closed, or is let
go of, at the end of a feed or because nobody holds the dispatcher any more.
-/
inductive Entry where
  | made
  | updated
  | closed
  | removed
  | freed
  deriving DecidableEq

/--
An entry in the accounts of a dispatcher, for a subscription by its number in the table and its
slot.
-/
structure Posting where
  entry : Entry
  registration : Nat × Nat
  deriving DecidableEq

/--
The subscriptions that something became of, in order.
-/
def posted (e : Entry) (l : List Posting) : List (Nat × Nat) :=
  l.filterMap fun p => if p.entry = e then some p.registration else none

@[simp]
theorem posted_nil (e : Entry) : posted e [] = [] := rfl

@[simp]
theorem posted_append (e : Entry) (l l' : List Posting) :
    posted e (l ++ l') = posted e l ++ posted e l' :=
  List.filterMap_append

@[simp]
theorem posted_map (e e' : Entry) (rs : List (Nat × Nat)) :
    posted e (rs.map (Posting.mk e')) = if e' = e then rs else [] := by
  rw [posted, List.filterMap_map]
  split
  . next he => simp [he]
  . next he => simp [he]

/--
A value is handed to the subscriptions whose subscribers are there, and the others are found closed.
-/
theorem posted_handed (e : Entry) (alive : Nat × Nat → Bool) (rs : List (Nat × Nat)) :
    posted e (rs.map fun r => ⟨if alive r then .updated else .closed, r⟩) =
      match e with
      | .updated => rs.filter alive
      | .closed => rs.filter fun r => !alive r
      | _ => [] := by
  induction rs with
  | nil => cases e <;> rfl
  | cons r rs ih =>
    rw [List.map_cons, ← List.singleton_append, posted_append, ih]
    cases halive : alive r <;> cases e <;> simp [posted, halive]

theorem mem_posted {e : Entry} {l : List Posting} {r : Nat × Nat} :
    r ∈ posted e l ↔ ⟨e, r⟩ ∈ l := by
  rw [posted, List.mem_filterMap]
  constructor
  . rintro ⟨⟨e', r'⟩, hp, hr⟩
    simp only [Option.ite_none_right_eq_some, Option.some.injEq] at hr
    rwa [← hr.1, ← hr.2]
  . intro hp
    exact ⟨_, hp, if_pos rfl⟩

namespace Dispatcher

variable {d next : Dispatcher α} {a : DispatcherAction α} {ms : List (Occurrence α)}
  {l : List Posting}

/--
Whether somebody holds a dispatcher, be it a loop.
-/
def isHeld (d : Dispatcher α) : Bool := d.handles.any id || d.loops.any (·.phase ≠ .gone)

/--
What an action enters in the accounts.
-/
def postings (d : Dispatcher α) : DispatcherAction α → List Posting
  | .subscribe => if d.ended then [] else [⟨.made, (d.nextId, d.slots.length)⟩]
  | .receive i =>
    match d.next? i with
    | some _ =>
      d.registered.map fun r => ⟨if d.hasReader r.2 then .updated else .closed, r⟩
    | none => []
  | .clear i =>
    match d.loops[i]?, d.holder with
    | some ⟨_, .ending⟩, none => d.registered.map (Posting.mk .removed)
    | _, _ => []
  | .drop handle =>
    if { d with handles := d.handles.set handle false }.isHeld then []
    else d.registered.map (Posting.mk .freed)
  | _ => []

def ledger (d : Dispatcher α) (as : List (DispatcherAction α)) : List Posting :=
  Run.history (fun d a => (d.step a).1) postings d as

/--
Whether a dispatcher is held after each of a series of actions.
-/
def StaysHeld (d : Dispatcher α) (as : List (DispatcherAction α)) : Prop :=
  Run.Obeys (fun d a => (d.step a).1) (fun d a => (d.step a).1.isHeld = true) d as

instance (d : Dispatcher α) (as : List (DispatcherAction α)) : Decidable (d.StaysHeld as) :=
  inferInstanceAs (Decidable (Run.Obeys ..))

theorem registered_dispatch (d : Dispatcher α) (x : α) :
    (d.dispatch x).1.registered = d.registered.filter fun r => d.hasReader r.2 := by
  simp [dispatch, List.partition_eq_filter_filter]

theorem tallies_dispatch (d : Dispatcher α) (x : α) :
    (d.dispatch x).1.tallies =
      { d.tallies with
        updated := d.tallies.updated + (d.registered.filter fun r => d.hasReader r.2).length
        closed := d.tallies.closed + (d.registered.filter fun r => !d.hasReader r.2).length } := by
  simp [dispatch, List.partition_eq_filter_filter, Function.comp_def]

theorem getElem?_slots_dispatch (x : α) {k : Nat} {s : Slot α} (hs : d.slots[k]? = some s) :
    (d.dispatch x).1.slots[k]? =
      some (if k ∈ d.registered.map Prod.snd ∧ s.hasReader = true then s.put x else s) := by
  simp only [dispatch, List.partition_eq_filter_filter]
  rw [getElem?_foldl_modify (fun s : Slot α => s.put x) (fun _ => rfl), hs, Option.map_some]
  have hiff : (∃ r ∈ d.registered.filter fun r => d.hasReader r.2, r.2 = k) ↔
      k ∈ d.registered.map Prod.snd ∧ s.hasReader = true := by
    rw [List.mem_map]
    constructor
    . rintro ⟨r, hr, rfl⟩
      obtain ⟨hr, hreader⟩ := List.mem_filter.1 hr
      exact ⟨⟨r, hr, rfl⟩, by rwa [hasReader_of_slot hs] at hreader⟩
    . rintro ⟨⟨r, hr, rfl⟩, hreader⟩
      exact ⟨r, List.mem_filter.2 ⟨hr, by rwa [hasReader_of_slot hs]⟩, rfl⟩
  simp only [hiff]
  split <;> rfl

/--
The actions that enter nothing in the accounts leave the table and the tallies as they are.
-/
theorem quiet_of_effect (he : d.Effect a next ms) (hsubscribe : a ≠ .subscribe)
    (hreceive : ∀ i, a ≠ .receive i) (hclear : ∀ i, a ≠ .clear i) (hdrop : ∀ i, a ≠ .drop i) :
    next.registered = d.registered ∧ next.tallies = d.tallies ∧ next.nextId = d.nextId := by
  cases he with
  | subscribe | subscribeLate => exact absurd rfl hsubscribe
  | receive i => exact absurd rfl (hreceive i)
  | clear i => exact absurd rfl (hclear i)
  | drop i | desert i => exact absurd rfl (hdrop i)
  | _ => exact ⟨rfl, rfl, rfl⟩

/--
The ways in which a step changes the table of registered subscriptions and the tallies, with what it
enters in the accounts.
-/
inductive Turnover (d next : Dispatcher α) : List Posting → Prop where
  | none (hregistered : next.registered = d.registered) (htallies : next.tallies = d.tallies)
    (hid : next.nextId = d.nextId) : Turnover d next []
  | make (hregistered : next.registered = d.registered ++ [(d.nextId, d.slots.length)])
    (htallies : next.tallies = { d.tallies with made := d.tallies.made + 1 })
    (hid : next.nextId = d.nextId + 1) (hslots : next.slots.length = d.slots.length + 1) :
    Turnover d next [⟨.made, (d.nextId, d.slots.length)⟩]
  | hand (x : α) (hregistered : next.registered = (d.dispatch x).1.registered)
    (htallies : next.tallies = (d.dispatch x).1.tallies) (hid : next.nextId = d.nextId) :
    Turnover d next (d.registered.map fun r => ⟨if d.hasReader r.2 then .updated else .closed, r⟩)
  | release (e : Entry) (he : e = .removed ∨ e = .freed) (hregistered : next.registered = [])
    (htallies : next.tallies = d.tallies) (hid : next.nextId = d.nextId) :
    Turnover d next (d.registered.map (Posting.mk e))

theorem turnover_step (d : Dispatcher α) (a : DispatcherAction α) :
    d.Turnover (d.step a).1 (d.postings a) := by
  have hquiet : a ≠ .subscribe → (∀ i, a ≠ .receive i) → (∀ i, a ≠ .clear i) →
      (∀ i, a ≠ .drop i) → d.Turnover (d.step a).1 [] := by
    intro hsubscribe hreceive hclear hdrop
    obtain ⟨hregistered, htallies, hid⟩ :=
      quiet_of_effect (d.step_effect a) hsubscribe hreceive hclear hdrop
    exact .none hregistered htallies hid
  cases a with
  | subscribe =>
    simp only [step, subscribe, postings]
    split
    . exact .none rfl rfl rfl
    . exact .make rfl rfl rfl List.length_append
  | receive i =>
    cases hx : d.next? i with
    | none =>
      have hsame : (d.step (.receive i)).1 = d := receive_of_next?_eq_none hx
      simp only [hsame, postings, hx]
      exact .none rfl rfl rfl
    | some x =>
      obtain ⟨feed, c, rest, hl, hc, hq⟩ := next?_eq_some_iff.1 hx
      simp only [step, receive, hl, hc, Channel.receive, hq, postings, hx]
      exact .hand x rfl rfl rfl
  | clear i =>
    by_cases h : ∃ feed, d.loops[i]? = some ⟨feed, .ending⟩ ∧ d.holder = none
    . obtain ⟨feed, hl, hh⟩ := h
      simp only [step, clear, postings, hl, hh]
      exact .release .removed (.inl rfl) rfl rfl rfl
    . have hnone : d.postings (.clear i) = [] := by
        simp only [postings]
        split
        . next hl hh => exact absurd ⟨_, hl, hh⟩ h
        . rfl
      have hsame : d.clear i = d := by
        unfold clear
        split
        . next hl hh => exact absurd ⟨_, hl, hh⟩ h
        . rfl
      simp only [hnone, step, hsame]
      exact .none rfl rfl rfl
  | drop handle =>
    cases hheld : ({ d with handles := d.handles.set handle false } : Dispatcher α).isHeld with
    | true =>
      rw [isHeld] at hheld
      simp only [step, drop, postings, isHeld, hheld, if_true]
      exact .none rfl rfl rfl
    | false =>
      rw [isHeld] at hheld
      simp only [step, drop, postings, isHeld, hheld, Bool.false_eq_true, if_false]
      exact .release .freed (.inr rfl) rfl rfl rfl
  | unsubscribe | poll | start | acquire | opened | makeChannel | send | dropSender | finish
  | clone =>
    exact hquiet (by simp) (by simp) (by simp) (by simp)

/--
Every subscription that was registered still is, or was found closed or let go of, just once, and
the tallies say how many there are of each. No number and no slot is used twice.
-/
structure Balanced (d : Dispatcher α) (l : List Posting) : Prop where
  whole : (posted .made l).Perm
    (d.registered ++ (posted .closed l ++ (posted .removed l ++ posted .freed l)))
  tallies : d.tallies =
    ⟨(posted .made l).length, (posted .updated l).length, (posted .closed l).length⟩
  ids : ((posted .made l).map Prod.fst).Nodup
  places : ((posted .made l).map Prod.snd).Nodup
  old : ∀ r ∈ posted .made l, r.1 < d.nextId ∧ r.2 < d.slots.length
  known : ∀ p ∈ l, p.registration ∈ posted .made l

namespace Balanced

theorem make (key : String) : Balanced (Dispatcher.make key : Dispatcher α) [] := by
  constructor <;> simp [Dispatcher.make]

theorem mem_made (hd : Balanced d l) {r : Nat × Nat} (hr : r ∈ d.registered) :
    r ∈ posted .made l :=
  hd.whole.mem_iff.2 (List.mem_append_left _ hr)

theorem nodup_registered (hd : Balanced d l) (f : Nat × Nat → Nat)
    (hf : ((posted .made l).map f).Nodup) : (d.registered.map f).Nodup := by
  have hall := (hd.whole.map f).nodup_iff.1 hf
  rw [List.map_append] at hall
  exact hall.of_append_left

theorem old_of_le (hd : Balanced d l) (hid : d.nextId ≤ next.nextId)
    (hlength : d.slots.length ≤ next.slots.length) :
    ∀ r ∈ posted .made l, r.1 < next.nextId ∧ r.2 < next.slots.length := by
  intro r hr
  obtain ⟨hfirst, hsecond⟩ := hd.old r hr
  exact ⟨Nat.lt_of_lt_of_le hfirst hid, Nat.lt_of_lt_of_le hsecond hlength⟩

/--
A subscription that is new has a number and a slot that no other one has.
-/
theorem make_turnover (hd : Balanced d l)
    (hregistered : next.registered = d.registered ++ [(d.nextId, d.slots.length)])
    (htallies : next.tallies = { d.tallies with made := d.tallies.made + 1 })
    (hid : next.nextId = d.nextId + 1) (hslots : next.slots.length = d.slots.length + 1) :
    Balanced next (l ++ [⟨.made, (d.nextId, d.slots.length)⟩]) := by
  have hnew : ∀ e, posted e [⟨.made, (d.nextId, d.slots.length)⟩] =
      if .made = e then [(d.nextId, d.slots.length)] else [] :=
    fun e => posted_map e .made [(d.nextId, d.slots.length)]
  have hfresh : ∀ (f : Nat × Nat → Nat), ((posted .made l).map f).Nodup →
      (∀ r ∈ posted .made l, f r < f (d.nextId, d.slots.length)) →
      ((posted .made l ++ [(d.nextId, d.slots.length)]).map f).Nodup := by
    intro f hnodup hlt
    rw [List.map_append, List.nodup_append]
    refine ⟨hnodup, List.nodup_singleton _, ?_⟩
    intro k hk k' hk'
    obtain ⟨r, hr, rfl⟩ := List.mem_map.1 hk
    rw [List.map_singleton, List.mem_singleton] at hk'
    have hr := hlt r hr
    omega
  constructor
  . simp only [posted_append, hnew, reduceCtorEq, if_false, if_true, List.append_nil, hregistered]
    rw [List.perm_iff_count]
    intro r
    have hold := hd.whole.count_eq r
    simp only [List.count_append] at hold ⊢
    omega
  . simp [hnew, htallies, hd.tallies]
  . rw [posted_append, hnew, if_pos rfl]
    exact hfresh _ hd.ids fun r hr => (hd.old r hr).1
  . rw [posted_append, hnew, if_pos rfl]
    exact hfresh _ hd.places fun r hr => (hd.old r hr).2
  . rw [posted_append, hnew, if_pos rfl, List.forall_mem_append]
    refine ⟨hd.old_of_le (by omega) (by omega), ?_⟩
    simp [hid, hslots]
  . rw [posted_append, hnew, if_pos rfl, List.forall_mem_append]
    refine ⟨fun p hp => List.mem_append_left _ (hd.known p hp), ?_⟩
    simp

/--
A step that makes no subscription stays balanced if each one that leaves the table is entered once.
-/
theorem of_table {ps : List Posting} (hd : Balanced d l) (hmade : posted .made ps = [])
    (hof : ∀ p ∈ ps, p.registration ∈ d.registered)
    (htable : d.registered.Perm
      (next.registered ++ (posted .closed ps ++ (posted .removed ps ++ posted .freed ps))))
    (htallies : next.tallies =
      { d.tallies with
        updated := d.tallies.updated + (posted .updated ps).length
        closed := d.tallies.closed + (posted .closed ps).length })
    (hid : next.nextId = d.nextId) (hlength : d.slots.length ≤ next.slots.length) :
    Balanced next (l ++ ps) := by
  have hsame : posted .made (l ++ ps) = posted .made l := by
    rw [posted_append, hmade, List.append_nil]
  constructor
  . rw [hsame, List.perm_iff_count]
    intro r
    have hold := hd.whole.count_eq r
    have hsplit := htable.count_eq r
    simp only [posted_append, List.count_append] at hold hsplit ⊢
    omega
  . rw [htallies, hd.tallies, hsame, posted_append, posted_append, List.length_append,
      List.length_append]
  . rw [hsame]
    exact hd.ids
  . rw [hsame]
    exact hd.places
  . rw [hsame]
    exact hd.old_of_le (Nat.le_of_eq hid.symm) hlength
  . rw [hsame, List.forall_mem_append]
    exact ⟨hd.known, fun p hp => hd.mem_made (hof p hp)⟩

theorem turnover {ps : List Posting} (hd : Balanced d l) (ht : d.Turnover next ps)
    (hlength : d.slots.length ≤ next.slots.length) : Balanced next (l ++ ps) := by
  cases ht with
  | none hregistered htallies hid =>
    exact hd.of_table rfl (by simp) (by simp [hregistered]) htallies hid hlength
  | make hregistered htallies hid hslots =>
    exact hd.make_turnover hregistered htallies hid hslots
  | hand x hregistered htallies hid =>
    have hpost : ∀ e, posted e (d.registered.map fun r =>
        ⟨if d.hasReader r.2 then .updated else .closed, r⟩) = _ :=
      fun e => posted_handed e (fun r => d.hasReader r.2) d.registered
    refine hd.of_table (hpost .made) (List.forall_mem_map.2 fun r hr => hr) ?_ ?_ hid hlength
    . -- the table splits in those who stay and those who are found closed
      rw [hregistered, registered_dispatch, hpost, hpost, hpost, List.append_nil, List.append_nil]
      exact (List.filter_append_perm (fun r => d.hasReader r.2) d.registered).symm
    . rw [htallies, tallies_dispatch, hpost, hpost]
  | release e he hregistered htallies hid =>
    refine hd.of_table ?_ (List.forall_mem_map.2 fun r hr => hr) ?_ ?_ hid hlength
    . rcases he with rfl | rfl <;> simp
    . rcases he with rfl | rfl <;> simp [hregistered]
    . rcases he with rfl | rfl <;> simp [htallies]

theorem run (hd : Balanced d l) (as : List (DispatcherAction α)) :
    Balanced (d.run as) (l ++ d.ledger as) :=
  Run.invariant_of_step (fun (d : Dispatcher α) a => (d.step a).1) postings Balanced
    (fun d _ a hd => hd.turnover (d.turnover_step a) (length_slots_le (d.step_effect a))) as d l hd

theorem of_run (key : String) (as : List (DispatcherAction α)) :
    Balanced ((Dispatcher.make key).run as) ((Dispatcher.make key).ledger as) :=
  (Balanced.make key).run as

end Balanced

/--
A dispatcher lets go of its subscriptions for want of a holder only when nobody holds it any more.
-/
theorem posted_freed_postings (d : Dispatcher α) (a : DispatcherAction α)
    (hheld : (d.step a).1.isHeld = true) : posted .freed (d.postings a) = [] := by
  cases a with
  | subscribe =>
    simp only [postings]
    split <;> rfl
  | receive i =>
    simp only [postings]
    split
    . exact posted_handed .freed (fun r => d.hasReader r.2) d.registered
    . rfl
  | clear i =>
    simp only [postings]
    split
    . exact posted_map .freed .removed d.registered
    . rfl
  | drop handle =>
    have hstill :
        ({ d with handles := d.handles.set handle false } : Dispatcher α).isHeld = true := by
      simp only [step, drop] at hheld
      split at hheld <;> exact hheld
    rw [postings, if_pos hstill, posted_nil]
  | unsubscribe | poll | start | acquire | opened | makeChannel | send | dropSender | finish
  | clone =>
    rfl

theorem posted_freed_ledger (as : List (DispatcherAction α)) (hheld : d.StaysHeld as) :
    posted .freed (d.ledger as) = [] :=
  Run.invariant (fun (d : Dispatcher α) a => (d.step a).1) postings
    (fun d a => (d.step a).1.isHeld = true) (fun _ l => posted .freed l = [])
    (fun d l a ha hl => by rw [posted_append, hl, d.posted_freed_postings a ha, List.append_nil])
    as d [] rfl hheld

/--
A subscription is registered under the slot that was added for it.
-/
theorem Turnover.slot_of_made {ps : List Posting} (ht : d.Turnover next ps) {r : Nat × Nat}
    (hr : r ∈ posted .made ps) : r.2 = d.slots.length := by
  cases ht with
  | none => simp at hr
  | make =>
    have hr := mem_posted.1 hr
    simp only [List.mem_singleton, Posting.mk.injEq, true_and] at hr
    rw [hr]
  | hand => simp [posted_handed _ fun r => d.hasReader r.2] at hr
  | release e he =>
    rcases he with rfl | rfl <;> simp at hr

theorem le_slot_of_made (d : Dispatcher α) (as : List (DispatcherAction α)) {r : Nat × Nat}
    (hr : r ∈ posted .made (d.ledger as)) : d.slots.length ≤ r.2 := by
  have hrun := Run.invariant_of_step (fun (d : Dispatcher α) a => (d.step a).1) postings
    (fun e l => d.slots.length ≤ e.slots.length ∧ ∀ r ∈ posted .made l, d.slots.length ≤ r.2)
    ?_ as d [] ⟨Nat.le_refl _, by simp⟩
  . exact hrun.2 r hr
  . rintro e l a ⟨hle, hl⟩
    refine ⟨Nat.le_trans hle (length_slots_le (e.step_effect a)), ?_⟩
    rw [posted_append, List.forall_mem_append]
    refine ⟨hl, ?_⟩
    intro r hr
    rw [(e.turnover_step a).slot_of_made hr]
    exact hle

/--
A subscription that is made when the dispatcher has ended is not registered, neither then nor later.
-/
theorem slot_ne_of_late (key : String) (before after : List (DispatcherAction α))
    (hended : ((make key).run before).ended = true) :
    ∀ r ∈ posted .made ((make key).ledger (before ++ .subscribe :: after)),
      r.2 ≠ ((make key).run before).slots.length := by
  intro r hr
  have hsplit : (make key).ledger (before ++ .subscribe :: after) =
      (make key).ledger before ++ ((make key).run before).ledger (.subscribe :: after) := by
    simp only [ledger, Run.history_append]
    rfl
  rw [hsplit, posted_append] at hr
  rcases List.mem_append.1 hr with hbefore | hafter
  . exact Nat.ne_of_lt ((Balanced.of_run key before).old r hbefore).2
  . -- it gets a slot and is not registered, and all that come later have other slots
    have hlate : r ∈ posted .made ((((make key).run before).step .subscribe).1.ledger after) := by
      simpa [ledger, Run.history, postings, hended] using hafter
    have hle := le_slot_of_made _ _ hlate
    rw [step, subscribe, if_pos hended] at hle
    simp only [List.length_append, List.length_singleton] at hle
    omega

/--
Hands a value to one subscription.
-/
def hand (d : Dispatcher α) (slot : Nat) (x : α) : Dispatcher α :=
  { d with
    slots := d.slots.modify slot (·.put x)
    tallies := { d.tallies with updated := d.tallies.updated + 1 } }

/--
Forgets a subscription that was found closed.
-/
def forget (d : Dispatcher α) (id : Nat) : Dispatcher α :=
  { d with
    registered := d.registered.filter (·.1 ≠ id)
    tallies := { d.tallies with closed := d.tallies.closed + 1 } }

/--
Hands a value to one registered subscription, or forgets it if its subscriber is gone.
-/
def visit (x : α) (p : Dispatcher α × List Event) (r : Nat × Nat) : Dispatcher α × List Event :=
  if p.1.hasReader r.2 then (p.1.hand r.2 x, p.2)
  else (p.1.forget r.1, p.2 ++ [p.1.removal r.1])

/--
Hands a value to registered subscriptions one after the other.
-/
def dispatchIn (d : Dispatcher α) (order : List (Nat × Nat)) (x : α) : Dispatcher α × List Event :=
  order.foldl (visit x) (d, [])

@[simp]
theorem hasReader_hand (d : Dispatcher α) (slot : Nat) (x : α) (k : Nat) :
    (d.hand slot x).hasReader k = d.hasReader k := by
  simp only [hasReader, hand, List.getElem?_modify]
  cases d.slots[k]? with
  | none => simp
  | some s => by_cases hk : slot = k <;> simp [hk, Slot.put]

@[simp]
theorem removal_hand (d : Dispatcher α) (slot : Nat) (x : α) (id : Nat) :
    (d.hand slot x).removal id = d.removal id := rfl

@[simp]
theorem hasReader_forget (d : Dispatcher α) (id k : Nat) :
    (d.forget id).hasReader k = d.hasReader k := rfl

@[simp]
theorem removal_forget (d : Dispatcher α) (id id' : Nat) :
    (d.forget id).removal id' = d.removal id' := rfl

/--
What the dispatcher and the events have come to when some subscriptions have had their turns.
-/
theorem foldl_visit (x : α) (order : List (Nat × Nat)) (d : Dispatcher α) (es : List Event) :
    order.foldl (visit x) (d, es) =
      ({ d with
        slots := (order.filter fun r => d.hasReader r.2).foldl
          (fun slots r => slots.modify r.2 (·.put x)) d.slots
        registered := d.registered.filter fun s =>
          (order.filter fun r => !d.hasReader r.2).all (s.1 ≠ ·.1)
        tallies := { d.tallies with
          updated := d.tallies.updated + (order.filter fun r => d.hasReader r.2).length
          closed := d.tallies.closed + (order.filter fun r => !d.hasReader r.2).length } },
        es ++ (order.filter fun r => !d.hasReader r.2).map fun r => d.removal r.1) := by
  induction order generalizing d es with
  | nil => simp
  | cons r order ih =>
    rw [List.foldl_cons, visit]
    cases halive : d.hasReader r.2 with
    | true =>
      rw [if_pos rfl, ih]
      simp only [hasReader_hand, removal_hand, List.filter_cons, halive, if_true, List.foldl_cons,
        List.length_cons, Bool.not_true, Bool.false_eq_true, if_false]
      simp only [hand, Nat.add_assoc, Nat.add_comm 1]
    | false =>
      rw [if_neg (by simp), ih]
      simp only [hasReader_forget, removal_forget, List.filter_cons, halive, Bool.false_eq_true,
        if_false, Bool.not_false, if_true, List.length_cons, List.map_cons, List.append_assoc,
        List.singleton_append, List.all_cons]
      simp only [forget, List.filter_filter, Bool.and_comm, Nat.add_assoc, Nat.add_comm 1]

/--
In whatever order a value is handed to the registered subscriptions, the dispatcher comes to the
same, and the same are found closed.
-/
theorem dispatchIn_perm {d : Dispatcher α} (hids : (d.registered.map Prod.fst).Nodup)
    {order : List (Nat × Nat)} (horder : order.Perm d.registered) (x : α) :
    (d.dispatchIn order x).1 = (d.dispatch x).1 ∧
      (d.dispatchIn order x).2.Perm (d.dispatch x).2 := by
  have hkept := horder.filter fun r => d.hasReader r.2
  have hgone := horder.filter fun r => !d.hasReader r.2
  have hslots : (order.filter fun r => d.hasReader r.2).foldl
        (fun slots r => slots.modify r.2 (·.put x)) d.slots =
      (d.registered.filter fun r => d.hasReader r.2).foldl
        (fun slots r => slots.modify r.2 (·.put x)) d.slots := by
    apply List.ext_getElem?
    intro k
    rw [getElem?_foldl_modify (fun s : Slot α => s.put x) (fun _ => rfl),
      getElem?_foldl_modify (fun s : Slot α => s.put x) (fun _ => rfl)]
    simp only [hkept.mem_iff]
  have hregistered : (d.registered.filter fun s =>
        (order.filter fun r => !d.hasReader r.2).all (s.1 ≠ ·.1)) =
      d.registered.filter fun r => d.hasReader r.2 := by
    apply List.filter_congr
    intro s hs
    cases halive : d.hasReader s.2 with
    | true =>
      rw [List.all_eq_true]
      intro r hr
      obtain ⟨hr, hgone⟩ := List.mem_filter.1 (hgone.mem_iff.1 hr)
      rw [decide_eq_true_iff]
      intro hid
      rw [List.inj_on_of_nodup_map hids hs hr hid] at halive
      simp [halive] at hgone
    | false =>
      rw [List.all_eq_false]
      exact ⟨s, hgone.mem_iff.2 (List.mem_filter.2 ⟨hs, by simp [halive]⟩), by simp⟩
  rw [dispatchIn, foldl_visit, hslots, hregistered, hkept.length_eq, hgone.length_eq,
    List.nil_append, dispatch, List.partition_eq_filter_filter]
  exact ⟨rfl, hgone.map _⟩

/--
A loop that takes a value out of its feed hands it on, and changes nothing else.
-/
theorem step_receive {i : Nat} {x : α} (hx : d.next? i = some x) :
    ∃ channels, d.step (.receive i) =
      ((({ d with channels } : Dispatcher α).dispatch x).1,
        (({ d with channels } : Dispatcher α).dispatch x).2, none) := by
  obtain ⟨feed, c, rest, hl, hc, hq⟩ := next?_eq_some_iff.1 hx
  refine ⟨d.channels.set feed { c with queue := rest }, ?_⟩
  simp only [step, receive, hl, hc, Channel.receive, hq]

/--
As long as somebody holds a dispatcher, the subscriptions that it has registered are those that it
still hands values to, those that it has found closed and those that it has let go of at the end of
a feed, and the tallies count them. A value is handed to all registered subscriptions whose
subscribers are there, and the others are found closed, to the same effect in any order. A
subscription that is made when the dispatcher has ended never gets into the table or into the
accounts.
-/
theorem accounts_agree (key : String) (as : List (DispatcherAction α))
    (hheld : (make key : Dispatcher α).StaysHeld as) :
    let d := (make key).run as
    let l := (make key).ledger as
    (d.tallies = ⟨(posted .made l).length, (posted .updated l).length, (posted .closed l).length⟩ ∧
      (posted .made l).Perm (d.registered ++ (posted .closed l ++ posted .removed l)) ∧
      (d.subscriberCount : Int) =
        d.tallies.made - d.tallies.closed - (posted .removed l).length) ∧
    (∀ i x order, d.next? i = some x → order.Perm d.registered →
      let next := (d.step (.receive i)).1
      let handed := { d with channels := next.channels }.dispatchIn order x
      (handed.1 = next ∧ handed.2.Perm (d.step (.receive i)).2.1) ∧
      (d.registered.map Prod.snd).Nodup ∧
      next.registered = d.registered.filter (fun r => d.hasReader r.2) ∧
      next.tallies = { d.tallies with
        updated := d.tallies.updated + (d.registered.filter fun r => d.hasReader r.2).length
        closed := d.tallies.closed + (d.registered.filter fun r => !d.hasReader r.2).length } ∧
      ∀ (k : Nat) s, d.slots[k]? = some s → next.slots[k]? =
        some (if k ∈ d.registered.map Prod.snd ∧ s.hasReader = true then s.put x else s)) ∧
    ∀ before after, as = before ++ .subscribe :: after → ((make key).run before).ended = true →
      let k := ((make key).run before).slots.length
      (∀ p ∈ l, p.registration.2 ≠ k) ∧ ∀ r ∈ d.registered, r.2 ≠ k := by
  intro d l
  have hd : Balanced d l := Balanced.of_run key as
  have hwhole :
      (posted .made l).Perm (d.registered ++ (posted .closed l ++ posted .removed l)) := by
    have hall := hd.whole
    rwa [posted_freed_ledger as hheld, List.append_nil] at hall
  refine ⟨⟨hd.tallies, hwhole, ?_⟩, ?_, ?_⟩
  . have hlength := hwhole.length_eq
    rw [List.length_append, List.length_append] at hlength
    rw [hd.tallies, subscriberCount]
    dsimp only
    omega
  . intro i x order hx horder
    obtain ⟨channels, hstep⟩ := step_receive hx
    rw [hstep]
    have hids := hd.nodup_registered _ hd.ids
    exact ⟨dispatchIn_perm (d := { d with channels }) hids horder x,
      hd.nodup_registered _ hd.places, registered_dispatch _ x, tallies_dispatch _ x,
      fun k s hs => getElem?_slots_dispatch x hs⟩
  . rintro before after has hended k
    have hmade : ∀ r ∈ posted .made l, r.2 ≠ k := by
      simp only [l, has]
      exact slot_ne_of_late key before after hended
    exact ⟨fun p hp => hmade _ (hd.known p hp), fun r hr => hmade r (hd.mem_made hr)⟩

/--
A feed that ends with one subscription, a subscription that comes late, and a second feed with two
subscriptions, of which one is found closed and another is given up before the next value comes.
-/
def fedTwice : List (DispatcherAction Nat) :=
  [.subscribe, .makeChannel 4, .start, .acquire 0, .opened 0 (.ok 0), .dropSender 0, .finish 0,
    .clear 0, .subscribe, .makeChannel 4, .start, .acquire 1, .opened 1 (.ok 1), .subscribe,
    .subscribe, .unsubscribe 2, .send 1 7, .receive 1, .subscribe, .unsubscribe 3, .send 1 8]

theorem accounts_of_two_feeds :
    let d := (make "flags").run fedTwice
    let l := (make "flags").ledger fedTwice
    let next := (d.step (.receive 1)).1
    let handed := { d with channels := next.channels }.dispatchIn [(3, 4), (2, 3)] 8
    ((make "flags").StaysHeld fedTwice ∧ d.tallies = ⟨4, 1, 1⟩ ∧ posted .removed l = [(0, 0)] ∧
      (d.subscriberCount : Int) = 4 - 1 - 1) ∧
    (handed.1 = next ∧ next.registered = [(3, 4)] ∧ next.tallies = ⟨4, 2, 2⟩ ∧
      next.latest? 4 = some 8) ∧
    ∀ p ∈ l, p.registration.2 ≠ 1 := by
  intro d l next handed
  have hheld : (make "flags").StaysHeld fedTwice := by decide
  obtain ⟨⟨htallies, -, hcount⟩, hhanded, hlate⟩ := accounts_agree "flags" fedTwice hheld
  have hnext := hhanded 1 8 [(3, 4), (2, 3)] rfl (.swap ..)
  refine ⟨⟨hheld, htallies, rfl, hcount⟩, ⟨hnext.1.1, hnext.2.2.1, hnext.2.2.2.1, rfl⟩, ?_⟩
  exact (hlate (fedTwice.take 8) (fedTwice.drop 9) rfl rfl).1

end Dispatcher

end Upkeep.Config
