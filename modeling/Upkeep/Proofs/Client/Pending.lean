import Upkeep.Proofs.Client.Drain

/-!
This module contains what can be seen of the teardowns that are not over. A drain takes them out of
the list of the buffer for as long as it waits, so that neither the number of pending teardowns nor
another drain knows of them; and if the drain is given up, nobody ever will.
-/

namespace Upkeep.Client.Buffer

open Config

theorem left_append (b : Buffer) (is js : List Nat) :
    b.left (is ++ js) = b.left is ++ b.left js := by
  simp [left]

theorem pending_eq_length_left (b : Buffer) : b.pending = (b.left b.registered).length := rfl

theorem length_left_eq_zero_iff (b : Buffer) (is : List Nat) :
    (b.left is).length = 0 ↔ ∀ i ∈ is, b.isOver i = true := by
  rw [List.length_eq_zero_iff, left_eq_nil_iff]

theorem Tracked.pending_add {b : Buffer} {lost : List Nat} (hb : Tracked b lost) :
    b.pending + (b.left b.awaited).length + (b.left lost).length = b.unfinished.length := by
  have hlength := hb.left_perm.length_eq
  rw [listed, left_append, left_append, List.length_append, List.length_append] at hlength
  rw [pending_eq_length_left]
  omega

/--
The pending teardowns are those that are not over and that no drain has taken, be it one that still
waits or one that was given up. They are all that are not over just if no drain has one of them.
-/
theorem pending_add_taken_eq_unfinished (runtime : Runtime) (as : List Action) :
    let b := (Buffer.start runtime).run as
    let lost := (Buffer.start runtime).forsakenBy as
    b.pending + (b.left b.awaited).length + (b.left lost).length = b.unfinished.length ∧
    (b.pending = b.unfinished.length ↔
      (∀ i ∈ b.awaited, b.isOver i = true) ∧ ∀ i ∈ lost, b.isOver i = true) := by
  intro b lost
  have hb : Tracked b lost := Tracked.of_run runtime as
  have hsum := hb.pending_add
  refine ⟨hsum, ?_⟩
  rw [← length_left_eq_zero_iff, ← length_left_eq_zero_iff]
  omega

/--
Two clients were replaced, one with a grace of a second and then one with a grace of three.
-/
def twoReplaced : List Action :=
  let table address seconds := TargetTable.empty.upsert "db" ⟨address, .ofSeconds seconds⟩
  [.edit (table "a" 1), .begin "db" "", .proceed 0, .proceed 0, .construct 0 .built, .proceed 0,
   .edit (table "b" 3), .begin "db" "", .proceed 1, .proceed 1, .construct 1 .built, .proceed 1,
   .proceed 1,
   .edit (table "c" 1), .begin "db" "", .proceed 2, .proceed 2, .construct 2 .built, .proceed 2,
   .proceed 2]

/--
While a drain waits for both teardowns, and the closer of the first one asks, none is pending.
-/
theorem pending_zero_while_drain_waits :
    let b := (Buffer.start .around).run
      (twoReplaced ++ [.drain, .turn 0, .turn 1, .pass (.ofSeconds 1), .turn 0])
    b.drains = [some [0, 1]] ∧ b.teardowns.map (·.phase) = [.closing, .asleep (.ofSeconds 3)] ∧
    b.unfinished = [0, 1] ∧ b.pending = 0 := by
  decide +kernel

theorem of_mem_ite {p : Prop} [Decidable p] {m m' : Mark}
    (hm : m ∈ if p then [m'] else []) : p := by
  by_cases hp : p
  . exact hp
  . simp [hp] at hm

theorem drains_of_drained {b next : Buffer} {a : Action} {ms : List Mark} {d : Nat}
    (he : b.Effect a next ms) (hd : .drained d ∈ ms) : next.drains[d]? = some none := by
  cases he with
  | drain =>
    cases eq_drained_of_mem hd
    have hnil : b.registered = [] := of_mem_ite hd
    simp [drain, nextBatch_eq, hnil]
  | redrain d' batch hbatch =>
    cases eq_drained_of_mem hd
    have hnil : b.registered = [] := of_mem_ite hd
    simp [nextBatch_eq, hnil, getElem?_set_of_getElem? hbatch]
  | _ => simp at hd

/--
When a drain ends, a teardown that is not over is in the list of another drain, be it one that still
waits or one that was given up. All are over just if those in such lists are.
-/
theorem unfinished_after_drained (runtime : Runtime) (as : List Action) (a : Action) (d : Nat)
    (hd : .drained d ∈ ((Buffer.start runtime).run as).marks a) :
    let b := (Buffer.start runtime).run (as ++ [a])
    let lost := (Buffer.start runtime).forsakenBy (as ++ [a])
    (∀ i, b.isOver i = false →
      (∃ (w : Nat) (batch : List Nat), w ≠ d ∧ b.drains[w]? = some (some batch) ∧ i ∈ batch) ∨
        i ∈ lost) ∧
    ((∀ t ∈ b.teardowns, t.isOver = true) ↔
      (∀ i ∈ b.awaited, b.isOver i = true) ∧ ∀ i ∈ lost, b.isOver i = true) := by
  intro b lost
  have hb : Tracked b lost := Tracked.of_run runtime (as ++ [a])
  have hrun : b = (((Buffer.start runtime).run as).step a).1 := run_concat _ as a
  have hnil : b.registered = [] := hrun ▸ registered_eq_nil_of_drained (step_effect _ a) hd
  have hnone : b.drains[d]? = some none := hrun ▸ drains_of_drained (step_effect _ a) hd
  constructor
  . intro i hi
    have hmem := hb.complete i hi
    rw [listed, hnil, List.nil_append, List.mem_append, mem_awaited] at hmem
    rcases hmem with ⟨w, batch, hw, hmem⟩ | hmem
    . refine Or.inl ⟨w, batch, ?_, hw, hmem⟩
      rintro rfl
      simp [hnone] at hw
    . exact Or.inr hmem
  . have hperm := hb.left_perm
    rw [listed, hnil, List.nil_append, left_append] at hperm
    rw [← unfinished_eq_nil_iff, ← List.perm_nil, hperm.symm.congr_left]
    rw [List.perm_nil, List.append_eq_nil_iff, left_eq_nil_iff, left_eq_nil_iff]

theorem second_drain_leaves_list_of_first :
    .drained 1 ∈ ((Buffer.start .around).run (twoReplaced ++ [.drain])).marks .drain ∧
    ∃ (w : Nat) (batch : List Nat), w ≠ 1 ∧ 0 ∈ batch ∧
      ((Buffer.start .around).run (twoReplaced ++ [.drain] ++ [.drain])).drains[w]? =
        some (some batch) := by
  have hd : .drained 1 ∈ ((Buffer.start .around).run (twoReplaced ++ [.drain])).marks .drain := by
    decide +kernel
  obtain ⟨htaken, _⟩ := unfinished_after_drained .around (twoReplaced ++ [Action.drain]) .drain 1 hd
  rcases htaken 0 (by decide +kernel) with ⟨w, batch, hw, hbatch, hmem⟩ | hlost
  . exact ⟨hd, w, batch, hw, hmem, hbatch⟩
  . exact absurd hlost (by decide +kernel)

/--
A drain ends at once while another one waits, and after another one was given up.
-/
theorem drain_ends_before_teardowns :
    (let b := (Buffer.start .around).run (twoReplaced ++ [.drain])
     .drained 1 ∈ b.marks .drain ∧ (b.step .drain).1.unfinished = [0, 1]) ∧
    (let b := (Buffer.start .around).run (twoReplaced ++ [.drain, .abandon 0])
     .drained 1 ∈ b.marks .drain ∧ (b.step .drain).1.unfinished = [0, 1]) := by
  decide +kernel

end Upkeep.Client.Buffer
