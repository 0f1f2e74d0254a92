/-!
This module contains finite dictionaries: lists of bindings with distinct keys, in the order in
which the keys were first bound. The lemmas at the end say what a look-up returns after each
operation.
-/

namespace Upkeep

/--
A finite dictionary. No key is bound twice.
-/
structure Dict (κ : Type u) (α : Type v) where
  entries : List (κ × α)
  nodup : (entries.map Prod.fst).Nodup

namespace Dict

def empty : Dict κ α := ⟨[], List.nodup_nil⟩

instance : Inhabited (Dict κ α) := ⟨empty⟩

instance : EmptyCollection (Dict κ α) := ⟨empty⟩

/--
The bound keys, oldest first.
-/
def keys (d : Dict κ α) : List κ := d.entries.map Prod.fst

def size (d : Dict κ α) : Nat := d.entries.length

def isEmpty (d : Dict κ α) : Bool := d.entries.isEmpty

variable [DecidableEq κ]

def get? (d : Dict κ α) (k : κ) : Option α := (d.entries.find? (·.1 = k)).map Prod.snd

def contains (d : Dict κ α) (k : κ) : Bool := (d.get? k).isSome

theorem map_fst_replace (l : List (κ × α)) (k : κ) (v : α) :
    (l.map fun e => if e.1 = k then (k, v) else e).map Prod.fst = l.map Prod.fst := by
  induction l with
  | nil => rfl
  | cons e l ih =>
    by_cases h : e.1 = k
    · simp [h, ih]
    · simp [h, ih]

/--
Binds `k` to `v`. A key that was bound keeps its place, a new one comes last.
-/
def insert (d : Dict κ α) (k : κ) (v : α) : Dict κ α :=
  if h : k ∈ d.keys then
    ⟨d.entries.map fun e => if e.1 = k then (k, v) else e, by
      rw [map_fst_replace]; exact d.nodup⟩
  else
    ⟨d.entries ++ [(k, v)], by
      have := d.nodup
      simp only [keys] at h
      rw [List.map_append, List.nodup_append]
      refine ⟨this, by simp, ?_⟩
      intro a ha b hb
      simp only [List.map_cons, List.map_nil, List.mem_singleton] at hb
      subst hb
      intro hab
      exact h (hab ▸ ha)⟩

def erase (d : Dict κ α) (k : κ) : Dict κ α :=
  ⟨d.entries.filter (·.1 ≠ k), d.nodup.sublist (List.filter_sublist.map Prod.fst)⟩

/--
Applies `f` to the value of `k`, if there is one.
-/
def modify (d : Dict κ α) (k : κ) (f : α → α) : Dict κ α :=
  match d.get? k with
  | some v => d.insert k (f v)
  | none => d

/--
Binds the pairs of a list in order, so that of two pairs with one key the later wins.
-/
def ofList (l : List (κ × α)) : Dict κ α := l.foldl (fun d e => d.insert e.1 e.2) empty

@[simp]
theorem get?_empty (k : κ) : (empty : Dict κ α).get? k = none := rfl

theorem get?_eq_none_of_not_mem (d : Dict κ α) (k : κ) (h : k ∉ d.keys) : d.get? k = none := by
  simp only [get?, Option.map_eq_none_iff, List.find?_eq_none, decide_eq_true_eq]
  intro e he hk
  exact h (hk ▸ List.mem_map_of_mem he)

theorem mem_keys_of_get? (d : Dict κ α) (k : κ) (v : α) (h : d.get? k = some v) : k ∈ d.keys := by
  simp only [get?, Option.map_eq_some_iff] at h
  obtain ⟨e, he, _⟩ := h
  have hk := List.find?_some he
  simp only [decide_eq_true_eq] at hk
  exact hk ▸ List.mem_map_of_mem (List.mem_of_find?_eq_some he)

theorem mem_of_get? (d : Dict κ α) {k : κ} {v : α} (h : d.get? k = some v) :
    (k, v) ∈ d.entries := by
  simp only [get?, Option.map_eq_some_iff] at h
  obtain ⟨e, he, rfl⟩ := h
  have hk := List.find?_some he
  simp only [decide_eq_true_eq] at hk
  exact hk ▸ List.mem_of_find?_eq_some he

theorem get?_of_mem (d : Dict κ α) {e : κ × α} (he : e ∈ d.entries) : d.get? e.1 = some e.2 := by
  have hnodup := d.nodup
  rw [get?]
  generalize d.entries = l at hnodup he
  induction l with
  | nil => cases he
  | cons e' l ih =>
    rw [List.map_cons, List.nodup_cons] at hnodup
    rw [List.find?_cons]
    by_cases h : e'.1 = e.1
    · rcases List.mem_cons.1 he with rfl | hmem
      · simp
      · exact absurd (h ▸ List.mem_map_of_mem hmem) hnodup.1
    · rcases List.mem_cons.1 he with rfl | hmem
      · exact absurd rfl h
      · simpa [h] using ih hnodup.2 hmem

theorem filter_entries_of_get? (d : Dict κ α) {k : κ} {v : α} (h : d.get? k = some v)
    (p : κ → Bool) (hp : p k = true) (hothers : ∀ j ∈ d.keys, j ≠ k → p j = false) :
    d.entries.filter (fun e => p e.1) = [(k, v)] := by
  have hmem := d.mem_of_get? h
  have hnodup := d.nodup
  rw [keys] at hothers
  generalize d.entries = l at hmem hnodup hothers
  induction l with
  | nil => cases hmem
  | cons e l ih =>
    rw [List.map_cons, List.nodup_cons] at hnodup
    have hrest := fun j hj => hothers j (List.mem_cons_of_mem e.1 hj)
    rcases List.mem_cons.1 hmem with rfl | hmem
    · have hnone : l.filter (fun e => p e.1) = [] := by
        refine List.filter_eq_nil_iff.2 fun e he => ?_
        have hkey : e.1 ∈ l.map Prod.fst := List.mem_map_of_mem he
        simp [hrest e.1 hkey fun heq => hnodup.1 (heq ▸ hkey)]
      simp [hp, hnone]
    · have hne : e.1 ≠ k := fun heq => hnodup.1 (heq ▸ List.mem_map_of_mem hmem)
      have hfirst : p e.1 = false := hothers e.1 (List.mem_cons_self ..) hne
      simpa [hfirst] using ih hmem hnodup.2 hrest

theorem find?_replace (l : List (κ × α)) (k j : κ) (v : α) (h : k ∈ l.map Prod.fst) :
    ((l.map fun e => if e.1 = k then (k, v) else e).find? (·.1 = j)).map Prod.snd =
      if j = k then some v else (l.find? (·.1 = j)).map Prod.snd := by
  induction l with
  | nil => simp at h
  | cons e l ih =>
    by_cases he : e.1 = k
    · by_cases hj : j = k
      · simp [he, hj]
      · have hkj : ¬ k = j := fun h => hj h.symm
        by_cases hmem : k ∈ l.map Prod.fst
        · have := ih hmem
          simp only [hj, if_false] at this
          simpa [he, hj, hkj, -List.find?_map] using this
        · have hmap : (l.map fun e => if e.1 = k then (k, v) else e) = l := by
            conv => rhs; rw [← List.map_id l]
            apply List.map_congr_left
            intro e' he'
            have : ¬ e'.1 = k := fun h => hmem (h ▸ List.mem_map_of_mem he')
            simp [this]
          simp [he, hj, hkj, hmap]
    · have hmem : k ∈ l.map Prod.fst := by
        simp only [List.map_cons, List.mem_cons] at h
        rcases h with h | h
        · exact absurd h.symm he
        · exact h
      have := ih hmem
      by_cases hej : e.1 = j
      · have hjk : ¬ j = k := fun h => he (hej.trans h)
        simp [hej, hjk]
      · simpa [he, hej, -List.find?_map] using this

theorem get?_insert (d : Dict κ α) (k j : κ) (v : α) :
    (d.insert k v).get? j = if j = k then some v else d.get? j := by
  unfold insert
  split
  · next h => exact find?_replace d.entries k j v h
  · next h =>
    simp only [get?, List.find?_append]
    by_cases hj : j = k
    · subst hj
      have := d.get?_eq_none_of_not_mem j h
      simp only [get?, Option.map_eq_none_iff] at this
      simp [this]
    · have hkj : ¬ k = j := fun h => hj h.symm
      simp [hj, hkj]

@[simp]
theorem get?_insert_self (d : Dict κ α) (k : κ) (v : α) : (d.insert k v).get? k = some v := by
  simp [get?_insert]

theorem get?_modify (d : Dict κ α) (k j : κ) (f : α → α) :
    (d.modify k f).get? j = if j = k then (d.get? j).map f else d.get? j := by
  unfold modify
  split
  · next v hv =>
    rw [get?_insert]
    split
    · next hj => rw [hj, hv, Option.map_some]
    · rfl
  · next hnone =>
    split
    · next hj => rw [hj, hnone, Option.map_none]
    · rfl

theorem filter_flatMap_entries (d : Dict κ α) (f : α → List β) {k : κ} {v : α}
    (h : d.get? k = some v) :
    ((d.entries.flatMap fun e => (f e.2).map fun b => (e.1, b)).filter (·.1 = k)).map Prod.snd =
      f v := by
  obtain ⟨l, hl⟩ := d
  simp only [get?] at h ⊢
  induction l with
  | nil => simp at h
  | cons e l ih =>
    rw [List.map_cons, List.nodup_cons] at hl
    rw [List.flatMap_cons, List.filter_append, List.map_append]
    by_cases he : e.1 = k
    · have hrest : (l.flatMap fun e => (f e.2).map fun b => (e.1, b)).filter (·.1 = k) = [] := by
        simp only [List.filter_eq_nil_iff, List.mem_flatMap, List.mem_map]
        rintro _ ⟨e', he', b, -, rfl⟩ hk
        exact hl.1 (he.trans (of_decide_eq_true hk).symm ▸ List.mem_map_of_mem he')
      have hv : e.2 = v := by simpa [he] using h
      rw [hrest, ← hv]
      simp [List.filter_map, Function.comp_def, he]
    · rw [List.find?_cons_of_neg (by simpa using he)] at h
      rw [ih hl.2 h]
      simp [List.filter_map, Function.comp_def, he]

theorem get?_erase (d : Dict κ α) (k j : κ) :
    (d.erase k).get? j = if j = k then none else d.get? j := by
  simp only [get?, erase, List.find?_filter]
  by_cases hj : j = k
  · subst hj
    simp
  · simp only [hj, if_false]
    congr 2
    funext e
    by_cases he : e.1 = j
    · have : e.1 ≠ k := fun h => hj (he.symm.trans h)
      simp [he, hj]
    · simp [he]

theorem keys_insert (d : Dict κ α) (k : κ) (v : α) :
    (d.insert k v).keys = if k ∈ d.keys then d.keys else d.keys ++ [k] := by
  unfold insert
  split
  · next h => simp only [keys] at h ⊢; rw [map_fst_replace]
  · next h => simp [keys]

theorem mem_keys_insert (d : Dict κ α) (k j : κ) (v : α) :
    j ∈ (d.insert k v).keys ↔ j ∈ d.keys ∨ j = k := by
  rw [keys_insert]
  split
  · next h => exact ⟨.inl, fun hj => hj.elim id fun heq => heq ▸ h⟩
  · rw [List.mem_append, List.mem_singleton]

theorem size_insert (d : Dict κ α) (k : κ) (v : α) :
    (d.insert k v).size = if k ∈ d.keys then d.size else d.size + 1 := by
  unfold insert
  split <;> simp [size]

omit [DecidableEq κ] in
theorem size_eq_length_keys (d : Dict κ α) : d.size = d.keys.length := by
  simp [size, keys]

theorem mem_keys_iff (d : Dict κ α) (k : κ) : k ∈ d.keys ↔ (d.get? k).isSome := by
  constructor
  · intro h
    cases hg : d.get? k with
    | some v => rfl
    | none =>
      exfalso
      simp only [get?, Option.map_eq_none_iff, List.find?_eq_none, decide_eq_true_eq] at hg
      simp only [keys, List.mem_map] at h
      obtain ⟨e, he, rfl⟩ := h
      exact hg e he rfl
  · intro h
    obtain ⟨v, hv⟩ := Option.isSome_iff_exists.1 h
    exact d.mem_keys_of_get? k v hv

end Dict

end Upkeep
