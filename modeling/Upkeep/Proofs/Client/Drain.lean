import Upkeep.Proofs.Client.History

/-!
This module contains the proof that no teardown gets lost: one that is not over is in the list of
the buffer, in the list of one drain, or in the list of a drain that was given up, and only once in
all of these. If no drain is given up, a drain that leaves no other one waiting therefore leaves no
teardown behind.
-/

namespace Upkeep.Client

theorem Teardown.isOver_cancel (t : Teardown) (h : t.isOver = true) : t.cancel.isOver = true := by
  cases t with
  | mk name previous since phase =>
    cases phase <;> simp_all [isOver, cancel, isWaiting]

namespace Buffer

/--
Those of some teardowns that are not over.
-/
def left (b : Buffer) (is : List Nat) : List Nat := is.filter fun i => !b.isOver i

def unfinished (b : Buffer) : List Nat := b.left (List.range b.teardowns.length)

/--
The teardowns that drains wait for.
-/
def awaited (b : Buffer) : List Nat := b.drains.flatMap fun batch => batch.getD []

/--
The teardowns that a drain waits for which an action gives up.
-/
def forsaken (b : Buffer) : Action → List Nat
  | .abandon d => (b.drains[d]?).join.getD []
  | _ => []

/--
The teardowns that the drains waited for which a series of actions gives up.
-/
def forsakenBy (b : Buffer) (as : List Action) : List Nat :=
  Run.history (fun b a => (b.step a).1) forsaken b as

/--
The teardowns that are in a list of the buffer or of a drain, or were in that of a lost drain.
-/
def listed (b : Buffer) (lost : List Nat) : List Nat := b.registered ++ (b.awaited ++ lost)

/--
Each teardown that is not over is registered, or some drain waits for it.
-/
def Watched (b : Buffer) : Prop :=
  ∀ (i : Nat) t, b.teardowns[i]? = some t → t.isOver = false →
    i ∈ b.registered ∨ ∃ (d : Nat) (batch : List Nat), b.drains[d]? = some (some batch) ∧ i ∈ batch

theorem isOver_eq_false_iff (b : Buffer) (i : Nat) :
    b.isOver i = false ↔ ∃ t, b.teardowns[i]? = some t ∧ t.isOver = false := by
  unfold isOver
  cases b.teardowns[i]? <;> simp

theorem mem_left (b : Buffer) (is : List Nat) (i : Nat) :
    i ∈ b.left is ↔ i ∈ is ∧ b.isOver i = false := by
  simp [left]

theorem left_eq_nil_iff (b : Buffer) (is : List Nat) :
    b.left is = [] ↔ ∀ i ∈ is, b.isOver i = true := by
  simp [left]

theorem mem_unfinished (b : Buffer) (i : Nat) : i ∈ b.unfinished ↔ b.isOver i = false := by
  rw [unfinished, mem_left, List.mem_range, and_iff_right_iff_imp]
  intro hi
  obtain ⟨t, ht, _⟩ := (b.isOver_eq_false_iff i).1 hi
  exact (List.getElem?_eq_some_iff.1 ht).1

theorem unfinished_eq_nil_iff (b : Buffer) :
    b.unfinished = [] ↔ ∀ t ∈ b.teardowns, t.isOver = true := by
  rw [List.eq_nil_iff_forall_not_mem]
  constructor
  . intro hnil t ht
    obtain ⟨i, hi⟩ := List.mem_iff_getElem?.1 ht
    cases hover : t.isOver with
    | true => rfl
    | false =>
      have hnot := (b.isOver_eq_false_iff i).2 ⟨t, hi, hover⟩
      exact absurd ((b.mem_unfinished i).2 hnot) (hnil i)
  . intro hall i hi
    obtain ⟨t, ht, hover⟩ := (b.isOver_eq_false_iff i).1 ((b.mem_unfinished i).1 hi)
    simp [hall t (List.mem_of_getElem? ht)] at hover

theorem mem_awaited (b : Buffer) (i : Nat) :
    i ∈ b.awaited ↔
      ∃ (d : Nat) (batch : List Nat), b.drains[d]? = some (some batch) ∧ i ∈ batch := by
  simp only [awaited, List.mem_flatMap]
  constructor
  . rintro ⟨o, ho, hi⟩
    obtain ⟨d, hd⟩ := List.mem_iff_getElem?.1 ho
    cases o with
    | none => simp at hi
    | some batch => exact ⟨d, batch, hd, hi⟩
  . rintro ⟨d, batch, hd, hi⟩
    exact ⟨some batch, List.mem_of_getElem? hd, hi⟩

theorem nextBatch_getD (b : Buffer) : b.nextBatch.getD [] = b.registered := by
  rw [nextBatch_eq]
  split
  . next hnil => exact hnil.symm
  . rfl

/--
No teardown is listed twice, and one that is not over is listed.
-/
structure Tracked (b : Buffer) (lost : List Nat) : Prop where
  nodup : (b.listed lost).Nodup
  known : ∀ i ∈ b.listed lost, i < b.teardowns.length
  complete : ∀ i, b.isOver i = false → i ∈ b.listed lost

namespace Tracked

variable {b next : Buffer} {lost lost' : List Nat} {ms : List Mark}

theorem start (runtime : Runtime) : Tracked (Buffer.start runtime) [] := by
  constructor <;> simp [Buffer.start, listed, awaited, isOver]

/--
Lists may be rearranged, and may lose what is over.
-/
theorem of_perm (hb : Tracked b lost) (gone : List Nat)
    (hlisted : (gone ++ next.listed lost').Perm (b.listed lost))
    (hover : ∀ i ∈ gone, b.isOver i = true)
    (hlength : next.teardowns.length = b.teardowns.length)
    (hmono : ∀ i, b.isOver i = true → next.isOver i = true) : Tracked next lost' := by
  refine ⟨?_, ?_, ?_⟩
  . exact (List.nodup_append.1 (hlisted.nodup_iff.2 hb.nodup)).2.1
  . intro i hi
    rw [hlength]
    exact hb.known i (hlisted.subset (List.mem_append_right _ hi))
  . intro i hi
    have hnot : b.isOver i = false := by
      cases hold : b.isOver i with
      | false => rfl
      | true => simp [hmono i hold] at hi
    rcases List.mem_append.1 (hlisted.mem_iff.2 (hb.complete i hnot)) with hmem | hmem
    . simp [hover i hmem] at hnot
    . exact hmem

theorem still (hb : Tracked b lost) (hregistered : next.registered = b.registered)
    (hdrains : next.drains = b.drains) (hlength : next.teardowns.length = b.teardowns.length)
    (hmono : ∀ i, b.isOver i = true → next.isOver i = true) : Tracked next lost := by
  refine hb.of_perm [] ?_ (by simp) hlength hmono
  simp [listed, awaited, hregistered, hdrains]

theorem of_teardowns (hb : Tracked b lost) (hregistered : next.registered = b.registered)
    (hdrains : next.drains = b.drains) (hteardowns : next.teardowns = b.teardowns) :
    Tracked next lost := by
  refine hb.still hregistered hdrains (by rw [hteardowns]) ?_
  intro i hi
  rwa [isOver, hteardowns]

theorem of_set (hb : Tracked b lost) {i : Nat} {t t' : Teardown} (ht : b.teardowns[i]? = some t)
    (hover : t.isOver = false) (hregistered : next.registered = b.registered)
    (hdrains : next.drains = b.drains) (hteardowns : next.teardowns = b.teardowns.set i t') :
    Tracked next lost := by
  refine hb.still hregistered hdrains (by rw [hteardowns, List.length_set]) ?_
  intro j hj
  have hne : j ≠ i := by
    rintro rfl
    simp [isOver, ht, hover] at hj
  rw [isOver, hteardowns, getElem?_set_of_getElem? ht, if_neg hne]
  exact hj

theorem prune (hb : Tracked b lost) : Tracked b.prune lost := by
  refine hb.of_perm (b.registered.filter b.isOver) ?_ (by simp) rfl fun i hi => hi
  rw [listed, listed, ← List.append_assoc]
  exact (List.filter_append_perm b.isOver b.registered).append_right _

theorem concat (hb : Tracked b lost) (calls : List Call) (t : Teardown) :
    Tracked
      { b with
        calls := calls
        teardowns := b.teardowns ++ [t]
        registered := b.registered ++ [b.teardowns.length] } lost := by
  have hperm : (listed
      { b with
        calls := calls
        teardowns := b.teardowns ++ [t]
        registered := b.registered ++ [b.teardowns.length] } lost).Perm
      (b.teardowns.length :: b.listed lost) := by
    simp only [listed, List.append_assoc, List.singleton_append]
    exact List.perm_middle
  refine ⟨?_, ?_, ?_⟩
  . rw [hperm.nodup_iff, List.nodup_cons]
    exact ⟨fun hmem => absurd (hb.known _ hmem) (Nat.lt_irrefl _), hb.nodup⟩
  . intro i hi
    rw [List.length_append, List.length_singleton]
    rcases List.mem_cons.1 (hperm.subset hi) with rfl | hi
    . exact Nat.lt_succ_self _
    . exact Nat.lt_succ_of_lt (hb.known i hi)
  . intro i hi
    rw [hperm.mem_iff, List.mem_cons]
    obtain ⟨u, hu, hnot⟩ := (isOver_eq_false_iff _ i).1 hi
    rcases origin_of_concat hu with ⟨hlast, _⟩ | ⟨_, hu⟩
    . exact Or.inl hlast
    . exact Or.inr (hb.complete i ((b.isOver_eq_false_iff i).2 ⟨u, hu, hnot⟩))

theorem drain (hb : Tracked b lost) : Tracked b.drain lost := by
  refine hb.of_perm [] ?_ (by simp) rfl fun i hi => hi
  have hawaited : b.drain.awaited = b.awaited ++ b.registered := by
    simp [awaited, Buffer.drain, nextBatch_getD]
  rw [List.nil_append, listed, listed, hawaited, List.append_assoc]
  exact List.perm_append_comm_assoc b.awaited b.registered lost

theorem redrain (hb : Tracked b lost) (d : Nat) (batch : List Nat)
    (hd : b.drains[d]? = some (some batch)) (hover : ∀ i ∈ batch, b.isOver i = true) :
    Tracked { b with drains := b.drains.set d b.nextBatch, registered := [] } lost := by
  refine hb.of_perm batch ?_ hover rfl fun i hi => hi
  have hawaited := perm_flatMap_set (fun batch : Option (List Nat) => batch.getD []) hd b.nextBatch
  rw [nextBatch_getD] at hawaited
  simp only [listed, List.nil_append, ← List.append_assoc]
  exact hawaited.append_right lost

theorem abandon (hb : Tracked b lost) (d : Nat) :
    Tracked (b.abandon d) (lost ++ b.forsaken (.abandon d)) := by
  refine hb.of_perm [] ?_ (by simp) rfl fun i hi => hi
  have hawaited : ((b.abandon d).awaited ++ b.forsaken (.abandon d)).Perm b.awaited := by
    cases hd : b.drains[d]? with
    | none =>
      have hset : b.drains.set d none = b.drains :=
        List.set_eq_of_length_le (List.getElem?_eq_none_iff.1 hd)
      simp [awaited, Buffer.abandon, forsaken, hset, hd]
    | some batch =>
      have hset := perm_flatMap_set (fun batch : Option (List Nat) => batch.getD []) hd none
      rw [Option.getD_none, List.nil_append] at hset
      rw [forsaken, hd, Option.join_some]
      exact List.perm_append_comm.trans hset
  have hlost : ((b.abandon d).awaited ++ (lost ++ b.forsaken (.abandon d))).Perm
      (lost ++ b.awaited) :=
    (List.perm_append_comm_assoc ..).trans (hawaited.append_left lost)
  rw [List.nil_append, listed, listed]
  exact (hlost.trans List.perm_append_comm).append_left b.registered

theorem shutdown (hb : Tracked b lost) : Tracked b.shutdown lost := by
  refine hb.still rfl rfl (List.length_map ..) ?_
  intro i hi
  rw [isOver, Buffer.shutdown, List.getElem?_map, Option.all_map]
  rw [isOver] at hi
  cases ht : b.teardowns[i]? with
  | none => rfl
  | some t =>
    rw [ht] at hi
    exact t.isOver_cancel hi

theorem keep (hb : Tracked b lost) {a : Action} (he : b.Effect a next ms)
    (ha : ∀ d, a ≠ .abandon d) : Tracked next lost := by
  cases he with
  | schedule i name client previous since hc => exact hb.prune.concat _ _
  | sleep i t ht hp => exact hb.of_set ht (by simp [Teardown.isOver, hp]) rfl rfl rfl
  | wake i t ht hp =>
    refine hb.of_set ht ?_ rfl rfl rfl
    rcases hp with ⟨hp, _⟩ | ⟨due, hp, _⟩ <;> simp [Teardown.isOver, hp]
  | endCloseLater i t o ht hp => exact hb.of_set ht (by simp [Teardown.isOver, hp]) rfl rfl rfl
  | prune => exact hb.prune
  | drain => exact hb.drain
  | redrain d batch hd hover => exact hb.redrain d batch hd hover
  | abandon d => exact absurd rfl (ha d)
  | shutdown => exact hb.shutdown
  | _ => exact hb.of_teardowns rfl rfl rfl

theorem step (hb : Tracked b lost) (a : Action) :
    Tracked (b.step a).1 (lost ++ b.forsaken a) := by
  -- an effect may be idle, which does not say what `abandon` does to the list of its drain
  cases a with
  | abandon d => exact hb.abandon d
  | _ =>
    rw [forsaken, List.append_nil]
    . exact hb.keep (b.step_effect _) (by simp)
    . simp

theorem of_run (runtime : Runtime) (as : List Action) :
    Tracked ((Buffer.start runtime).run as) ((Buffer.start runtime).forsakenBy as) :=
  Run.invariant_of_step (fun (b : Buffer) a => (b.step a).1) forsaken Tracked
    (fun _ _ a hb => hb.step a) as (Buffer.start runtime) [] (.start runtime)

/--
The teardowns that are not over are those of the lists that are not over.
-/
theorem left_perm (hb : Tracked b lost) : (b.left (b.listed lost)).Perm b.unfinished := by
  have hlisted : (b.left (b.listed lost)).Nodup := List.Pairwise.filter _ hb.nodup
  have hunfinished : b.unfinished.Nodup := List.Pairwise.filter _ List.nodup_range
  rw [List.perm_ext_iff_of_nodup hlisted hunfinished]
  intro i
  rw [mem_left, mem_unfinished, and_iff_right_iff_imp]
  exact hb.complete i

end Tracked

theorem forsakenBy_eq_nil (b : Buffer) (as : List Action) (has : ∀ d, .abandon d ∉ as) :
    b.forsakenBy as = [] := by
  induction as generalizing b with
  | nil => rfl
  | cons a as ih =>
    have hhead : b.forsaken a = [] := by
      cases a with
      | abandon d => exact absurd (List.mem_cons_self ..) (has d)
      | _ => rfl
    rw [forsakenBy, Run.history, hhead, List.nil_append]
    apply ih
    intro d hd
    exact has d (List.mem_cons_of_mem _ hd)

theorem Watched.of_run (runtime : Runtime) (as : List Action) (has : ∀ d, .abandon d ∉ as) :
    Watched ((Buffer.start runtime).run as) := by
  have hb := Tracked.of_run runtime as
  rw [forsakenBy_eq_nil _ as has] at hb
  intro i t ht hover
  have hmem := hb.complete i ((isOver_eq_false_iff _ i).2 ⟨t, ht, hover⟩)
  rwa [listed, List.append_nil, List.mem_append, mem_awaited] at hmem

theorem registered_eq_nil_of_drained {b next : Buffer} {a : Action} {ms : List Mark} {d : Nat}
    (he : b.Effect a next ms) (hd : .drained d ∈ ms) : next.registered = [] := by
  cases he with
  | drain | redrain => rfl
  | _ => simp at hd

/--
When a drain ends and no other one waits, all teardowns are over.
-/
theorem isOver_of_drained (runtime : Runtime) (as : List Action) (a : Action) (d : Nat)
    (has : ∀ d, .abandon d ∉ as ++ [a])
    (hd : .drained d ∈ ((Buffer.start runtime).run as).marks a)
    (hwait : ∀ w ∈ ((Buffer.start runtime).run (as ++ [a])).drains, w = none) :
    ∀ t ∈ ((Buffer.start runtime).run (as ++ [a])).teardowns, t.isOver = true := by
  intro t ht
  have hwatched := Watched.of_run runtime (as ++ [a]) has
  have hnil : ((Buffer.start runtime).run (as ++ [a])).registered = [] := by
    rw [run_concat]
    exact registered_eq_nil_of_drained (step_effect _ a) hd
  obtain ⟨i, hi⟩ := List.mem_iff_getElem?.1 ht
  cases hover : t.isOver with
  | true => rfl
  | false =>
    rcases hwatched i t hi hover with hmem | ⟨d, batch, hbatch, _⟩
    . simp [hnil] at hmem
    . have hnone := hwait _ (List.mem_of_getElem? hbatch)
      simp at hnone

end Buffer

end Upkeep.Client
