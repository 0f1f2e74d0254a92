/-!
This module contains what the proofs need to know of lists in which one element was replaced or to
which one was added: where an element of the new list comes from.
-/

namespace Upkeep

theorem getElem?_set_of_getElem? {l : List α} {i : Nat} {x : α} (hx : l[i]? = some x) (y : α)
    (j : Nat) : (l.set i y)[j]? = if j = i then some y else l[j]? := by
  obtain ⟨hi, _⟩ := List.getElem?_eq_some_iff.1 hx
  by_cases hij : j = i
  . simp [hij, hi]
  . have hji : i ≠ j := fun h => hij h.symm
    simp [hij, List.getElem?_set_ne hji]

theorem modify_eq_set {l : List α} {i : Nat} {x : α} (hx : l[i]? = some x) (f : α → α) :
    l.modify i f = l.set i (f x) := by
  apply List.ext_getElem?
  intro j
  rw [List.getElem?_modify, getElem?_set_of_getElem? hx]
  by_cases hij : i = j
  . subst hij
    simp [hx]
  . have hji : j ≠ i := fun h => hij h.symm
    simp [hij, hji]

theorem set_eq_self {l : List α} {i : Nat} {x : α} (hx : l[i]? = some x) : l.set i x = l := by
  rw [← (List.getElem?_eq_some_iff.1 hx).2, List.set_getElem_self]

theorem getElem?_concat (l : List α) (x : α) (j : Nat) :
    (l ++ [x])[j]? = if j = l.length then some x else l[j]? := by
  rw [List.getElem?_append]
  by_cases hlt : j < l.length
  . have hne : j ≠ l.length := by omega
    simp [hlt, hne]
  . by_cases hj : j = l.length
    . simp [hj]
    . have hlast : j - l.length ≠ 0 := by omega
      simp [hlt, hj, hlast]

theorem takeWhile_concat (p : α → Bool) (l : List α) (x : α) :
    (l ++ [x]).takeWhile p = if l.all p then l ++ [x].takeWhile p else l.takeWhile p := by
  induction l with
  | nil => rfl
  | cons a l ih =>
    cases hp : p a with
    | false => simp [hp]
    | true =>
      rw [List.cons_append, List.takeWhile_cons_of_pos hp, List.takeWhile_cons_of_pos hp, ih,
        List.all_cons, hp, Bool.true_and]
      split <;> rfl

theorem origin_of_set {l : List α} {i j : Nat} {x y : α} (h : (l.set i x)[j]? = some y) :
    j = i ∧ y = x ∨ j ≠ i ∧ l[j]? = some y := by
  by_cases hj : j = i
  . subst hj
    have hlt := (List.getElem?_eq_some_iff.1 h).1
    rw [List.length_set] at hlt
    rw [List.getElem?_set_self hlt, Option.some.injEq] at h
    exact Or.inl ⟨rfl, h.symm⟩
  . have hij : i ≠ j := fun h => hj h.symm
    rw [List.getElem?_set_ne hij] at h
    exact Or.inr ⟨hj, h⟩

theorem origin_of_concat {l : List α} {j : Nat} {x y : α} (h : (l ++ [x])[j]? = some y) :
    j = l.length ∧ y = x ∨ j < l.length ∧ l[j]? = some y := by
  rw [getElem?_concat] at h
  split at h
  . next hj => exact Or.inl ⟨hj, (Option.some.inj h).symm⟩
  . exact Or.inr ⟨(List.getElem?_eq_some_iff.1 h).1, h⟩

theorem split_of_concat {l s t : List α} {x y : α} (h : l ++ [x] = s ++ y :: t) :
    l = s ∧ x = y ∧ t = [] ∨ ∃ t', t = t' ++ [x] ∧ l = s ++ y :: t' := by
  rcases List.eq_nil_or_concat t with rfl | ⟨t', z, rfl⟩
  . obtain ⟨hl, hx⟩ := List.append_singleton_inj.1 h
    exact .inl ⟨hl, hx, rfl⟩
  . rw [List.concat_eq_append] at h ⊢
    rw [← List.cons_append, ← List.append_assoc, List.append_singleton_inj] at h
    exact .inr ⟨t', by rw [h.2], h.1⟩

theorem split_of_append {l b s t : List α} {y : α} (h : l ++ b = s ++ y :: t) :
    (∃ t', t = t' ++ b ∧ l = s ++ y :: t') ∨ ∃ s', s = l ++ s' ∧ b = s' ++ y :: t := by
  rcases List.append_eq_append_iff.1 h with ⟨s', hs, hb⟩ | ⟨l', hl, ht⟩
  . exact .inr ⟨s', hs, hb⟩
  . cases l' with
    | nil => exact .inr ⟨[], by simpa using hl.symm, ht.symm⟩
    | cons x l' =>
      obtain ⟨rfl, htail⟩ := List.cons.inj ht
      exact .inl ⟨l', htail, hl⟩

theorem getElem?_foldl_modify_of_idempotent (f : β → β) (hf : ∀ x, f (f x) = f x) (place : γ → Nat)
    (rs : List γ) (l : List β) (k : Nat) :
    (rs.foldl (fun l r => l.modify (place r) f) l)[k]? =
      if ∃ r ∈ rs, place r = k then l[k]?.map f else l[k]? := by
  induction rs generalizing l with
  | nil => simp
  | cons r rs ih =>
    rw [List.foldl_cons, ih, List.getElem?_modify]
    by_cases hr : place r = k <;> by_cases hrs : ∃ r ∈ rs, place r = k <;> cases l[k]? <;>
      simp_all

theorem getElem?_foldl_modify (f : β → β) (hf : ∀ x, f (f x) = f x) (rs : List (Nat × Nat))
    (l : List β) (k : Nat) :
    (rs.foldl (fun l r => l.modify r.2 f) l)[k]? =
      if ∃ r ∈ rs, r.2 = k then l[k]?.map f else l[k]? :=
  getElem?_foldl_modify_of_idempotent f hf Prod.snd rs l k

theorem getElem?_foldl_modify_of_count_le_one (f : α → α) (is : List Nat) (l : List α) {k : Nat}
    (hcount : is.count k ≤ 1) :
    (is.foldl (fun l i => l.modify i f) l)[k]? = if k ∈ is then l[k]?.map f else l[k]? := by
  induction is generalizing l with
  | nil => simp
  | cons i is ih =>
    rw [List.count_cons] at hcount
    rw [List.foldl_cons, ih _ (by omega), List.getElem?_modify]
    by_cases hi : i = k
    . have hk : k ∉ is := by
        rw [← List.count_eq_zero]
        simp only [hi, BEq.rfl, if_true] at hcount
        omega
      simp [hi, hk]
    . have hik : k ≠ i := fun h => hi h.symm
      simp [hi, hik]

theorem length_foldl_modify (f : β → β) (place : γ → Nat) (rs : List γ) (l : List β) :
    (rs.foldl (fun l r => l.modify (place r) f) l).length = l.length := by
  induction rs generalizing l with
  | nil => rfl
  | cons r rs ih => rw [List.foldl_cons, ih, List.length_modify]

/--
Where one element was replaced, what it had is gone and what the new one has is there.
-/
theorem perm_flatMap_set (f : α → List β) {l : List α} {i : Nat} {x : α} (hx : l[i]? = some x)
    (y : α) : (f x ++ (l.set i y).flatMap f).Perm (f y ++ l.flatMap f) := by
  induction l generalizing i with
  | nil => simp at hx
  | cons a l ih =>
    cases i with
    | zero =>
      rw [List.getElem?_cons_zero, Option.some.injEq] at hx
      rw [hx]
      exact List.perm_append_comm_assoc (f x) (f y) (l.flatMap f)
    | succ i =>
      rw [List.getElem?_cons_succ] at hx
      have hout := List.perm_append_comm_assoc (f x) (f a) ((l.set i y).flatMap f)
      have hin := List.perm_append_comm_assoc (f a) (f y) (l.flatMap f)
      exact (hout.trans ((ih hx).append_left (f a))).trans hin

/--
The last of all is the last of those that come last in their lists.
-/
theorem getLast?_filterMap_getLast? (ls : List (List α)) :
    (ls.filterMap List.getLast?).getLast? = ls.flatten.getLast? := by
  induction ls with
  | nil => rfl
  | cons l ls ih =>
    rw [List.flatten_cons, List.getLast?_append, ← ih]
    cases hl : l.getLast? with
    | none => rw [List.filterMap_cons_none hl, Option.or_none]
    | some x =>
      rw [List.filterMap_cons_some hl, List.getLast?_cons]
      cases (ls.filterMap List.getLast?).getLast? <;> rfl

theorem prefix_of_eq {l l' : List α} (h : l' = l) : l <+: l' := h ▸ List.prefix_refl l'

theorem prefix_foldl (view : σ → List α) (step : σ → β → σ) (bs : List β) (s : σ)
    (hstep : ∀ s b, view s <+: view (step s b)) : view s <+: view (bs.foldl step s) := by
  induction bs generalizing s with
  | nil => exact List.prefix_refl _
  | cons b bs ih => exact (hstep s b).trans (ih (step s b))

end Upkeep
