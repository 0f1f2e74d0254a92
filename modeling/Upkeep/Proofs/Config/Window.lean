import Mathlib.Data.List.DropRight
import Mathlib.Data.List.TakeWhile
import Upkeep.Proofs.Config.Effect

/-!
This module contains what the history of a dispatcher says of a subscription: which values were
meant for it, which of them it has found, and what a look has to answer.
-/

namespace Upkeep.Config

namespace Occurrence

variable (k : Nat)

/--
Whether a subscription is made, and not too late.
-/
def joins : Occurrence α → Bool
  | .subscribed j late => j == k && !late
  | _ => false

def isEnd : Occurrence α → Bool
  | .ended => true
  | _ => false

def isLook : Occurrence α → Bool
  | .looked j _ => j == k
  | _ => false

def dispatched? : Occurrence α → Option α
  | .dispatched x => some x
  | _ => none

def found? : Occurrence α → Option α
  | .looked j (.value x) => if j = k then some x else none
  | _ => none

end Occurrence

namespace Subscription

variable (k : Nat) (h : List (Occurrence α))

/--
The history from the making of a subscription on. There is none if it was made after the end.
-/
def since : List (Occurrence α) := h.dropWhile fun m => !m.joins k

/--
Whether a subscription was made, and not all have ended since.
-/
def isOpen : Bool := !(since k h).isEmpty && (since k h).all fun m => !m.isEnd

/--
The values that were handed out after a subscription was made and before all ended.
-/
def window : List α := ((since k h).takeWhile fun m => !m.isEnd).filterMap Occurrence.dispatched?

/--
The history up to the last look of a subscription.
-/
def untilLook : List (Occurrence α) := h.rdropWhile fun m => !m.isLook k

/--
The values of a subscription that were not there at its last look.
-/
def unseen : List α := (window k h).drop (window k (untilLook k h)).length

/--
The values that a subscription has found.
-/
def found : List α := h.filterMap (Occurrence.found? k)

/--
What a look of a subscription has to answer: the newest value if there is one that was not there at
the last look, and otherwise whether one may still come.
-/
def answer : Polled α :=
  match (unseen k h).getLast? with
  | some x => .value x
  | none => if isOpen k h then .pending else .closed

/--
Whether all looks of a subscription have answered what they had to. It is made before it looks.
-/
structure Answered : Prop where
  answers : ∀ h₁ p h₂, h = h₁ ++ .looked k p :: h₂ → p = answer k h₁
  made : ∀ h₁ p h₂, h = h₁ ++ .looked k p :: h₂ → ∀ m ∈ h₂, m.joins k = false

variable {k h}

theorem since_eq_nil_iff : since k h = [] ↔ ∀ m ∈ h, m.joins k = false := by
  simp [since]

theorem since_concat (m : Occurrence α) :
    since k (h ++ [m]) =
      if (since k h).isEmpty then if m.joins k then [m] else [] else since k h ++ [m] := by
  rw [since, List.dropWhile_append, ← since]
  split
  . cases hm : m.joins k <;> simp [hm]
  . rfl

theorem isOpen_concat_of_not_joins {m : Occurrence α} (hm : m.joins k = false) :
    isOpen k (h ++ [m]) = (isOpen k h && !m.isEnd) := by
  rw [isOpen, since_concat, isOpen]
  cases hs : since k h with
  | nil => simp [hm]
  | cons => simp [Bool.and_assoc]

theorem isOpen_concat_of_joins {m : Occurrence α} (hm : m.joins k = true) (hs : since k h = []) :
    isOpen k (h ++ [m]) = true := by
  have hend : m.isEnd = false := by
    cases m with
    | ended => simp [Occurrence.joins] at hm
    | _ => rfl
  simp [isOpen, since_concat, hs, hm, hend]

theorem isOpen_of_since_eq_nil (hs : since k h = []) : isOpen k h = false := by
  simp [isOpen, hs]

theorem window_of_since_eq_nil (hs : since k h = []) : window k h = [] := by
  simp [window, hs]

theorem window_concat (m : Occurrence α) :
    window k (h ++ [m]) = window k h ++ if isOpen k h then m.dispatched?.toList else [] := by
  have hlast : ([m].takeWhile fun m => !m.isEnd).filterMap Occurrence.dispatched? =
      m.dispatched?.toList := by
    cases m <;> rfl
  rw [window, since_concat, window, isOpen]
  cases hs : since k h with
  | nil =>
    cases hm : m.joins k with
    | false => simp
    | true =>
      cases m with
      | subscribed j late => simp [Occurrence.isEnd, Occurrence.dispatched?]
      | _ => simp [Occurrence.joins] at hm
  | cons a s =>
    simp only [List.isEmpty_cons, Bool.false_eq_true, if_false, takeWhile_concat, Bool.not_false,
      Bool.true_and]
    split
    . next hall =>
      rw [List.filterMap_append, hlast, List.takeWhile_eq_self_iff.2 (List.all_eq_true.1 hall)]
    . rw [List.append_nil]

theorem window_mono {h₁ : List (Occurrence α)} (hp : h₁ <+: h) : window k h₁ <+: window k h := by
  obtain ⟨ms, rfl⟩ := hp
  induction ms using List.reverseRecOn with
  | nil => simp
  | append_singleton ms m ih =>
    rw [← List.append_assoc, window_concat]
    exact ih.trans (List.prefix_append _ _)

theorem window_untilLook (k : Nat) (h : List (Occurrence α)) :
    window k (untilLook k h) <+: window k h := by
  apply window_mono
  exact List.rdropWhile_prefix _ h

theorem window_append_unseen (k : Nat) (h : List (Occurrence α)) :
    window k (untilLook k h) ++ unseen k h = window k h :=
  List.prefix_iff_eq_append.1 (window_untilLook k h)

theorem untilLook_concat_of_look {m : Occurrence α} (hm : m.isLook k = true) :
    untilLook k (h ++ [m]) = h ++ [m] :=
  List.rdropWhile_concat_neg _ _ _ (by simp [hm])

theorem untilLook_concat_of_not_look {m : Occurrence α} (hm : m.isLook k = false) :
    untilLook k (h ++ [m]) = untilLook k h :=
  List.rdropWhile_concat_pos _ _ _ (by simp [hm])

theorem unseen_concat_of_look {m : Occurrence α} (hm : m.isLook k = true) :
    unseen k (h ++ [m]) = [] := by
  rw [unseen, untilLook_concat_of_look hm, List.drop_length]

theorem unseen_concat_of_not_look {m : Occurrence α} (hm : m.isLook k = false) :
    unseen k (h ++ [m]) = unseen k h ++ if isOpen k h then m.dispatched?.toList else [] := by
  have hwindow := window_append_unseen k (h ++ [m])
  rw [untilLook_concat_of_not_look hm, window_concat, ← window_append_unseen k h,
    List.append_assoc] at hwindow
  exact List.append_cancel_left hwindow

theorem exists_of_isLook {m : Occurrence α} (hm : m.isLook k = true) : ∃ p, m = .looked k p := by
  cases m with
  | looked j p => exact ⟨p, by simpa [Occurrence.isLook] using hm⟩
  | _ => simp [Occurrence.isLook] at hm

theorem found_concat_of_not_look {m : Occurrence α} (hm : m.isLook k = false) :
    found k (h ++ [m]) = found k h := by
  have hnone : m.found? k = none := by
    cases m with
    | looked j p =>
      have hj : j ≠ k := by simpa [Occurrence.isLook] using hm
      cases p <;> simp [Occurrence.found?, hj]
    | _ => rfl
  simp [found, hnone]

theorem answer_of_value {x : α} (hp : answer k h = .value x) : (window k h).getLast? = some x := by
  unfold answer at hp
  split at hp
  . next y hy =>
    cases hp
    rw [← window_append_unseen k h, List.getLast?_append, hy]
    rfl
  . split at hp <;> simp at hp

theorem answer_eq_closed_iff : answer k h = .closed ↔ unseen k h = [] ∧ isOpen k h = false := by
  unfold answer
  split
  . next x hx =>
    constructor
    . simp
    . rintro ⟨hnil, -⟩
      simp [hnil] at hx
  . next hnone =>
    rw [List.getLast?_eq_none_iff] at hnone
    cases isOpen k h <;> simp [hnone]

theorem answer_of_since_eq_nil (hs : since k h = []) : answer k h = .closed := by
  rw [answer_eq_closed_iff, unseen, window_of_since_eq_nil hs, List.drop_nil]
  exact ⟨rfl, isOpen_of_since_eq_nil hs⟩

/--
A closed subscription stays closed, and no value is meant for it any more.
-/
theorem closed_append (hc : answer k h = .closed) {ms : List (Occurrence α)}
    (hms : ∀ m ∈ ms, m.joins k = false) :
    answer k (h ++ ms) = .closed ∧ window k (h ++ ms) = window k h := by
  induction ms using List.reverseRecOn with
  | nil => simpa using hc
  | append_singleton ms m ih =>
    obtain ⟨hclosed, hwindow⟩ := ih fun m' hm' => hms m' (List.mem_append_left _ hm')
    obtain ⟨hunseen, hopen⟩ := answer_eq_closed_iff.1 hclosed
    have hm := hms m (List.mem_append_right _ (List.mem_singleton_self m))
    have hlast : unseen k (h ++ ms ++ [m]) = [] := by
      cases hl : m.isLook k with
      | true => exact unseen_concat_of_look hl
      | false =>
        rw [unseen_concat_of_not_look hl, hunseen, hopen]
        rfl
    rw [← List.append_assoc, answer_eq_closed_iff, isOpen_concat_of_not_joins hm, window_concat,
      hopen, hwindow]
    exact ⟨⟨hlast, rfl⟩, by simp⟩

namespace Answered

theorem concat (ha : Answered k h) {m : Occurrence α} (hl : ∀ p, m = .looked k p → p = answer k h)
    (hj : m.joins k = true → ∀ p, .looked k p ∉ h) : Answered k (h ++ [m]) := by
  constructor
  . intro h₁ p h₂ heq
    rcases split_of_concat heq with ⟨rfl, hm, -⟩ | ⟨t, -, hold⟩
    . exact hl p hm
    . exact ha.answers h₁ p t hold
  . intro h₁ p h₂ heq m' hm'
    rcases split_of_concat heq with ⟨-, -, rfl⟩ | ⟨t, rfl, hold⟩
    . simp at hm'
    . rcases List.mem_append.1 hm' with hearlier | hlast
      . exact ha.made h₁ p t hold m' hearlier
      . rw [List.mem_singleton.1 hlast]
        cases hm : m.joins k with
        | false => rfl
        | true =>
          have hlook : .looked k p ∈ h := by simp [hold]
          exact absurd hlook (hj hm p)

theorem of_append {ms : List (Occurrence α)} (ha : Answered k (h ++ ms)) : Answered k h := by
  constructor
  . rintro h₁ p h₂ rfl
    exact ha.answers h₁ p (h₂ ++ ms) (by simp)
  . rintro h₁ p h₂ rfl m' hm'
    exact ha.made h₁ p (h₂ ++ ms) (by simp) m' (List.mem_append_left _ hm')

theorem closed_of_mem (ha : Answered k h) {h₁ h₂ : List (Occurrence α)}
    (heq : h = h₁ ++ .looked k .closed :: h₂) :
    window k h = window k h₁ ∧ ∀ p, .looked k p ∈ h₂ → p = .closed := by
  have hclosed := (ha.answers h₁ .closed h₂ heq).symm
  have hjoins : ∀ m ∈ .looked k .closed :: h₂, m.joins k = false := by
    rintro m (_ | ⟨_, hm⟩)
    . rfl
    . exact ha.made h₁ .closed h₂ heq m hm
  refine ⟨heq ▸ (closed_append hclosed hjoins).2, ?_⟩
  intro p hp
  obtain ⟨s, t, rfl⟩ := List.append_of_mem hp
  rw [ha.answers (h₁ ++ .looked k .closed :: s) p t (by simp [heq])]
  exact (closed_append hclosed fun m hm => hjoins m (List.mem_append_left _ hm)).1

/--
What a subscription has found is among the values that were meant for it, in their order, and ends
with the newest one that was there at its last look.
-/
theorem found_untilLook (ha : Answered k h) :
    (found k h).Sublist (window k (untilLook k h)) ∧
      (found k h).getLast? = (window k (untilLook k h)).getLast? := by
  -- only a look changes either side, and it adds what it has to answer to both or to none
  induction h using List.reverseRecOn with
  | nil => exact ⟨List.Sublist.refl _, rfl⟩
  | append_singleton h m ih =>
    obtain ⟨hsub, hlast⟩ := ih ha.of_append
    cases hl : m.isLook k with
    | false =>
      rw [found_concat_of_not_look hl, untilLook_concat_of_not_look hl]
      exact ⟨hsub, hlast⟩
    | true =>
      obtain ⟨p, rfl⟩ := exists_of_isLook hl
      have hp : p = answer k h := ha.answers h p [] rfl
      have hwindow : window k (h ++ [.looked k p]) = window k (untilLook k h) ++ unseen k h := by
        rw [window_append_unseen, window_concat]
        simp [Occurrence.dispatched?]
      rw [untilLook_concat_of_look hl, hwindow]
      unfold answer at hp
      split at hp
      . next x hx =>
        have hfound : found k (h ++ [.looked k p]) = found k h ++ [x] := by
          simp [found, Occurrence.found?, hp]
        rw [hfound, List.getLast?_append, List.getLast?_append, hx]
        exact ⟨hsub.append (List.singleton_sublist.2 (List.mem_of_getLast? hx)), rfl⟩
      . next hnone =>
        have hfound : found k (h ++ [.looked k p]) = found k h := by
          rw [found, List.filterMap_append, found, hp]
          cases isOpen k h <;> simp [Occurrence.found?]
        rw [hfound, List.getLast?_eq_none_iff.1 hnone, List.append_nil]
        exact ⟨hsub, hlast⟩

theorem found_of_closed (ha : Answered k h) (hc : answer k h = .closed) :
    (found k h).getLast? = (window k h).getLast? := by
  rw [ha.found_untilLook.2, ← window_append_unseen k h, (answer_eq_closed_iff.1 hc).1,
    List.append_nil]

end Answered

end Subscription

end Upkeep.Config
