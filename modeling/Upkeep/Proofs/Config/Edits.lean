import Mathlib.Data.List.Induction
import Upkeep.Config.TargetStore
import Upkeep.Proofs.Lists
import Upkeep.Proofs.Run

/-!
This module contains what the tables of a store hold: what their edits leave behind, through
whatever handles they were made. An edit either settles the target of a name or says nothing of the
name, and the last one that settles it counts.
-/

namespace Upkeep

namespace Dict

variable [DecidableEq κ]

theorem get?_foldl_insert (d : Dict κ α) (l : List (κ × α)) (k : κ) :
    (l.foldl (fun d e => d.insert e.1 e.2) d).get? k =
      ((l.filter (·.1 = k)).getLast?.map Prod.snd).or (d.get? k) := by
  induction l generalizing d with
  | nil => rfl
  | cons e l ih =>
    rw [List.foldl_cons, ih, get?_insert]
    by_cases he : e.1 = k
    . rw [List.filter_cons_of_pos (by simpa using he), List.getLast?_cons]
      cases (l.filter (·.1 = k)).getLast? <;> simp [he]
    . rw [List.filter_cons_of_neg (by simpa using he), if_neg fun h => he h.symm]

/--
Of the pairs with one key, the last one counts.
-/
theorem get?_ofList (l : List (κ × α)) (k : κ) :
    (ofList l).get? k = (l.filter (·.1 = k)).getLast?.map Prod.snd := by
  rw [ofList, get?_foldl_insert, get?_empty, Option.or_none]

end Dict

namespace Config

inductive TargetEdit where
  | upsert (name : String) (target : Target)
  | remove (name : String)
  | replace (entries : List (String × Target))

namespace TargetEdit

def apply (t : TargetTable) : TargetEdit → TargetTable
  | .upsert name target => t.upsert name target
  | .remove name => t.remove name
  | .replace entries => .ofEntries entries

/--
What an edit says of a name, if it says anything: the target with which it leaves the name, or that
it leaves it without one. A new table says something of all names: of the entries for a name the
last one counts, and a name without an entry has no target.
-/
def settles? (name : String) : TargetEdit → Option (Option Target)
  | .upsert other target => if other = name then some (some target) else none
  | .remove other => if other = name then some none else none
  | .replace entries => some ((entries.filter (·.1 = name)).getLast?.map Prod.snd)

theorem get?_apply (t : TargetTable) (e : TargetEdit) (name : String) :
    (e.apply t).get? name = (e.settles? name).getD (t.get? name) := by
  cases e with
  | upsert other target =>
    rw [apply, TargetTable.get?_upsert, settles?]
    by_cases h : other = name
    . simp [h]
    . simp [h, Ne.symm h]
  | remove other =>
    rw [apply, TargetTable.get?_remove, settles?]
    by_cases h : other = name
    . simp [h]
    . simp [h, Ne.symm h]
  | replace entries => exact Dict.get?_ofList entries name

end TargetEdit

/--
Whether a series of edits leaves a name with a target: one of them gives it the target, and none of
those after it says anything of the name.
-/
def Leaves (edits : List TargetEdit) (name : String) (target : Target) : Prop :=
  ∃ before e after, edits = before ++ e :: after ∧ e.settles? name = some (some target) ∧
    ∀ later ∈ after, later.settles? name = none

theorem leaves_concat_of_settles {e : TargetEdit} {name : String} {settled : Option Target}
    (he : e.settles? name = some settled) (edits : List TargetEdit) (target : Target) :
    Leaves (edits ++ [e]) name target ↔ settled = some target := by
  constructor
  . rintro ⟨before, first, after, hedits, hfirst, hafter⟩
    rcases split_of_concat hedits with ⟨-, rfl, -⟩ | ⟨after, rfl, -⟩
    . rwa [he, Option.some.injEq] at hfirst
    . rw [hafter e (by simp)] at he
      cases he
  . rintro rfl
    exact ⟨edits, e, [], rfl, he, by simp⟩

theorem leaves_concat_of_silent {e : TargetEdit} {name : String} (he : e.settles? name = none)
    (edits : List TargetEdit) (target : Target) :
    Leaves (edits ++ [e]) name target ↔ Leaves edits name target := by
  constructor
  . rintro ⟨before, first, after, hedits, hfirst, hafter⟩
    rcases split_of_concat hedits with ⟨-, rfl, -⟩ | ⟨after, rfl, rfl⟩
    . rw [he] at hfirst
      cases hfirst
    . exact ⟨before, first, after, rfl, hfirst,
        fun later hlater => hafter later (List.mem_append_left _ hlater)⟩
  . rintro ⟨before, first, after, rfl, hfirst, hafter⟩
    refine ⟨before, first, after ++ [e], by simp, hfirst, fun later hlater => ?_⟩
    rcases List.mem_append.1 hlater with hold | hnew
    . exact hafter later hold
    . rwa [List.mem_singleton.1 hnew]

theorem get?_foldl_apply_iff (edits : List TargetEdit) (name : String) (target : Target) :
    (edits.foldl TargetEdit.apply .empty).get? name = some target ↔ Leaves edits name target := by
  -- the last edit settles the name, or it leaves it to the edits before
  induction edits using List.reverseRecOn with
  | nil =>
    refine iff_of_false (by simp) ?_
    rintro ⟨before, e, after, hedits, -⟩
    simp at hedits
  | append_singleton edits e ih =>
    rw [List.foldl_append, List.foldl_cons, List.foldl_nil, TargetEdit.get?_apply]
    cases he : e.settles? name with
    | none => rw [leaves_concat_of_silent he, ← ih, Option.getD_none]
    | some settled => rw [leaves_concat_of_settles he, Option.getD_some]

namespace TargetStore

/--
A table by its index. One that does not exist is empty.
-/
def tableAt (s : TargetStore) (i : Nat) : TargetTable := (s.tables[i]?).getD .empty

/--
What a step does to tables. A document that is read for a new table replaces what an empty table
holds; one that is rejected does nothing.
-/
def edits (s : TargetStore) : TargetStep → List (Nat × TargetEdit)
  | .upsert handle name target => (s.handles[handle]?).toList.map (·, .upsert name target)
  | .remove handle name => (s.handles[handle]?).toList.map (·, .remove name)
  | .reload handle text =>
    (readEntries? text).toList.flatMap fun entries =>
      (s.handles[handle]?).toList.map (·, .replace entries)
  | .create text =>
    (readEntries? text).toList.map fun entries => (s.tables.length, .replace entries)
  | .clone _ => []

def run (s : TargetStore) (steps : List TargetStep) : TargetStore :=
  steps.foldl (fun s a => (s.step a).1) s

/--
What a series of steps does to tables.
-/
def history (s : TargetStore) (steps : List TargetStep) : List (Nat × TargetEdit) :=
  Run.history (fun (s : TargetStore) a => (s.step a).1) edits s steps

/--
What is done to one table.
-/
def editsOf (i : Nat) (h : List (Nat × TargetEdit)) : List TargetEdit :=
  (h.filter (·.1 = i)).map Prod.snd

theorem read_of_rejected {text : String} (htext : readEntries? text = none) :
    TargetTable.read text = .error .toml := by
  rw [TargetTable.read, htext]

theorem read_of_accepted {text : String} {entries : List (String × Target)}
    (htext : readEntries? text = some entries) :
    ∃ events, TargetTable.read text = .ok (.ofEntries entries, events) := by
  rw [TargetTable.read, htext]
  exact ⟨_, rfl⟩

theorem step_of_rejected {text : String} (s : TargetStore) (htext : readEntries? text = none)
    (handle : Nat) :
    s.step (.reload handle text) = (s, .rejected .toml, []) ∧
      s.step (.create text) = (s, .rejected .toml, []) := by
  unfold step
  simp only [read_of_rejected htext, and_self]

theorem step_of_accepted {text : String} {entries : List (String × Target)} (s : TargetStore)
    (htext : readEntries? text = some entries) (handle : Nat) :
    (∃ events, s.step (.reload handle text) =
      (s.update handle fun _ => .ofEntries entries, .accepted, events)) ∧
    ∃ events, s.step (.create text) =
      (⟨s.tables ++ [.ofEntries entries], s.handles ++ [s.tables.length]⟩,
        .handle s.handles.length, events) := by
  obtain ⟨events, hread⟩ := read_of_accepted htext
  unfold step
  simp only [hread]
  exact ⟨⟨_, rfl⟩, _, rfl⟩

theorem step_clone {handle i : Nat} {s : TargetStore} (hi : s.handles[handle]? = some i) :
    s.step (.clone handle) =
      ({ s with handles := s.handles ++ [i] }, .handle s.handles.length, []) := by
  unfold step
  simp only [hi]

/--
Whether all handles have a table, and each table holds what its edits leave behind.
-/
structure Sound (s : TargetStore) (h : List (Nat × TargetEdit)) : Prop where
  handles : ∀ i ∈ s.handles, i < s.tables.length
  tables : ∀ i, s.tableAt i = (editsOf i h).foldl TargetEdit.apply .empty

theorem editsOf_concat (i : Nat) (h : List (Nat × TargetEdit)) (j : Nat) (e : TargetEdit) :
    editsOf i (h ++ [(j, e)]) = if j = i then editsOf i h ++ [e] else editsOf i h := by
  by_cases hj : j = i <;> simp [editsOf, hj]

variable {s : TargetStore} {h : List (Nat × TargetEdit)}

namespace Sound

theorem edit (hs : s.Sound h) (handle : Nat) (e : TargetEdit) :
    (s.update handle (e.apply ·)).Sound (h ++ (s.handles[handle]?).toList.map (·, e)) := by
  cases hi : s.handles[handle]? with
  | none => simpa [update, hi] using hs
  | some i =>
    have ht := List.getElem?_eq_getElem (hs.handles i (List.mem_of_getElem? hi))
    refine ⟨fun j hj => ?_, fun j => ?_⟩
    . simp only [update, hi, List.length_modify] at hj ⊢
      exact hs.handles j hj
    . -- only the table behind the handle has one more edit
      rw [Option.toList_some, List.map_cons, List.map_nil, editsOf_concat]
      simp only [update, hi, tableAt, modify_eq_set ht, getElem?_set_of_getElem? ht]
      by_cases hj : j = i
      . rw [if_pos hj, if_pos hj.symm, List.foldl_append, hj, ← hs.tables i, tableAt, ht]
        rfl
      . rw [if_neg hj, if_neg fun heq => hj heq.symm]
        exact hs.tables j

theorem create (hs : s.Sound h) (entries : List (String × Target)) :
    Sound ⟨s.tables ++ [.ofEntries entries], s.handles ++ [s.tables.length]⟩
      (h ++ [(s.tables.length, .replace entries)]) := by
  refine ⟨fun j hj => ?_, fun j => ?_⟩
  . rw [List.length_append, List.length_singleton]
    rcases List.mem_append.1 hj with hold | hnew
    . exact Nat.lt_succ_of_lt (hs.handles j hold)
    . rw [List.mem_singleton.1 hnew]
      exact Nat.lt_succ_self _
  . rw [tableAt, getElem?_concat, editsOf_concat]
    by_cases hj : j = s.tables.length
    . rw [if_pos hj, if_pos hj.symm, List.foldl_append]
      rfl
    . rw [if_neg hj, if_neg fun heq => hj heq.symm]
      exact hs.tables j

theorem clone (hs : s.Sound h) {handle i : Nat} (hi : s.handles[handle]? = some i) :
    Sound { s with handles := s.handles ++ [i] } h := by
  refine ⟨fun j hj => ?_, hs.tables⟩
  rcases List.mem_append.1 hj with hold | hnew
  . exact hs.handles j hold
  . rw [List.mem_singleton.1 hnew]
    exact hs.handles i (List.mem_of_getElem? hi)

theorem step (hs : s.Sound h) (a : TargetStep) : (s.step a).1.Sound (h ++ s.edits a) := by
  cases a with
  | upsert handle name target => exact hs.edit handle (.upsert name target)
  | remove handle name => exact hs.edit handle (.remove name)
  | reload handle text =>
    cases htext : readEntries? text with
    | none =>
      rw [edits, htext, (s.step_of_rejected htext handle).1]
      rwa [Option.toList_none, List.flatMap_nil, List.append_nil]
    | some entries =>
      obtain ⟨⟨events, hstep⟩, -⟩ := s.step_of_accepted htext handle
      rw [edits, htext, hstep, Option.toList_some, List.flatMap_singleton]
      exact hs.edit handle (.replace entries)
  | create text =>
    cases htext : readEntries? text with
    | none =>
      rw [edits, htext, (s.step_of_rejected htext 0).2]
      rwa [Option.toList_none, List.map_nil, List.append_nil]
    | some entries =>
      obtain ⟨-, events, hstep⟩ := s.step_of_accepted htext 0
      rw [edits, htext, hstep]
      exact hs.create entries
  | clone handle =>
    rw [edits, List.append_nil]
    cases hi : s.handles[handle]? with
    | none =>
      unfold TargetStore.step
      simpa only [hi] using hs
    | some i =>
      rw [step_clone hi]
      exact hs.clone hi

end Sound

theorem sound_run (steps : List TargetStep) : (single.run steps).Sound (single.history steps) :=
  Run.invariant_of_step (fun (s : TargetStore) a => (s.step a).1) edits Sound
    (fun _ _ a hs => hs.step a) steps single []
    ⟨by simp [single], fun i => by cases i <;> rfl⟩

theorem handles_update (s : TargetStore) (handle : Nat) (f : TargetTable → TargetTable) :
    (s.update handle f).handles = s.handles := by
  unfold update
  split <;> rfl

theorem handles_prefix_step (s : TargetStore) (a : TargetStep) :
    s.handles <+: (s.step a).1.handles := by
  cases a with
  | upsert handle name target | remove handle name => exact prefix_of_eq (s.handles_update _ _)
  | reload handle text =>
    cases htext : readEntries? text with
    | none => exact prefix_of_eq (congrArg (·.1.handles) (s.step_of_rejected htext handle).1)
    | some entries =>
      obtain ⟨⟨events, hstep⟩, -⟩ := s.step_of_accepted htext handle
      exact prefix_of_eq ((congrArg (·.1.handles) hstep).trans (s.handles_update _ _))
  | create text =>
    cases htext : readEntries? text with
    | none => exact prefix_of_eq (congrArg (·.1.handles) (s.step_of_rejected htext 0).2)
    | some entries =>
      obtain ⟨-, events, hstep⟩ := s.step_of_accepted htext 0
      rw [hstep]
      exact List.prefix_append _ _
  | clone handle =>
    unfold step
    dsimp only
    split
    . exact List.prefix_append _ _
    . exact List.prefix_refl _

/--
A handle keeps its table.
-/
theorem table_run {handle i : Nat} (hi : s.handles[handle]? = some i) (steps : List TargetStep) :
    (s.run steps).table handle = (s.run steps).tableAt i := by
  have hlt := (List.getElem?_eq_some_iff.1 hi).1
  obtain ⟨later, hlater⟩ :=
    prefix_foldl handles (fun s a => (s.step a).1) steps s handles_prefix_step
  have hkept : (s.run steps).handles[handle]? = some i := by
    rw [run, ← hlater, List.getElem?_append_left hlt, hi]
  rw [table, hkept, Option.bind_some, tableAt]

/--
A handle and its clone have the same table.
-/
theorem table_run_clone {handle i : Nat} (hi : s.handles[handle]? = some i)
    (steps : List TargetStep) :
    let t := (s.step (.clone handle)).1.run steps
    t.table s.handles.length = t.table handle := by
  rw [step_clone hi]
  have hnew : (s.handles ++ [i])[s.handles.length]? = some i := List.getElem?_concat_length
  have hold : (s.handles ++ [i])[handle]? = some i := by
    rw [List.getElem?_append_left (List.getElem?_eq_some_iff.1 hi).1, hi]
  exact (table_run hnew steps).trans (table_run hold steps).symm

/--
The names with a target are as many as the table says.
-/
theorem size_eq_length (t : TargetTable) :
    ∃ names : List String, names.Nodup ∧
      (∀ name, name ∈ names ↔ ∃ target, t.get? name = some target) ∧ t.size = names.length := by
  refine ⟨t.byName.keys, t.byName.nodup, fun name => ?_, t.byName.size_eq_length_keys⟩
  rw [t.byName.mem_keys_iff, Option.isSome_iff_exists]
  rfl

/--
A table holds what its edits leave behind, through whatever handles they were made: each name has
the target that the last edit that says anything of it gives it, and the size is the number of names
that have one. Removing a name answers the target that it had. A document that is rejected changes
nothing and makes no table. A handle and its clone have the same table, whatever comes later.
-/
theorem tables_hold_what_edits_leave (steps : List TargetStep)
    (handle : Fin (single.run steps).handles.length) :
    let s := single.run steps
    ∃ i, s.handles[handle.val]? = some i ∧
      let edits := editsOf i (single.history steps)
      (∀ name target, (s.table handle).get? name = some target ↔ Leaves edits name target) ∧
      (∃ names : List String, names.Nodup ∧
        (∀ name, name ∈ names ↔ ∃ target, Leaves edits name target) ∧
        (s.table handle).size = names.length) ∧
      (∀ name, (s.step (.remove handle name)).2.1 = .target ((s.table handle).get? name)) ∧
      (∀ text,
        match readEntries? text with
        | some _ =>
          (s.step (.reload handle text)).2.1 = .accepted ∧
            (s.step (.create text)).2.1 = .handle s.handles.length
        | none =>
          s.step (.reload handle text) = (s, .rejected .toml, []) ∧
            s.step (.create text) = (s, .rejected .toml, [])) ∧
      (s.step (.clone handle)).2.1 = .handle s.handles.length ∧
      ∀ later,
        let t := (s.step (.clone handle)).1.run later
        t.table s.handles.length = t.table handle := by
  intro s
  have hsound := sound_run steps
  have hi : s.handles[handle.val]? = some s.handles[handle] := List.getElem?_eq_getElem handle.isLt
  have htable : s.table handle = (editsOf s.handles[handle] (single.history steps)).foldl
      TargetEdit.apply .empty := (table_run hi []).trans (hsound.tables _)
  have hget : ∀ name target, (s.table handle).get? name = some target ↔
      Leaves (editsOf s.handles[handle] (single.history steps)) name target := by
    intro name target
    rw [htable, get?_foldl_apply_iff]
  refine ⟨_, hi, hget, ?_, fun name => rfl, fun text => ?_, ?_, fun later => ?_⟩
  . obtain ⟨names, hnodup, hmem, hsize⟩ := size_eq_length (s.table handle)
    exact ⟨names, hnodup, fun name => by simp only [hmem, hget], hsize⟩
  . split
    . next entries htext =>
      obtain ⟨⟨events, hreload⟩, events', hcreate⟩ := s.step_of_accepted htext handle
      rw [hreload, hcreate]
      exact ⟨rfl, rfl⟩
    . next htext => exact s.step_of_rejected htext handle
  . rw [step_clone hi]
  . exact table_run_clone hi later

-- what is read through a clone replaces all, and what is rejected changes nothing
example :
    ((single.run [.upsert 0 "a" ⟨"x", .ofMillis 1⟩, .clone 0,
      .reload 1 "[[client.service]]\nname='b'\n[[client.service]]\nname='b'\ntarget='y'",
      .reload 0 "client=3"]).table 0).byName.entries = [("b", ⟨"y", .zero⟩)] := by
  decide +kernel

end TargetStore

end Config

end Upkeep
