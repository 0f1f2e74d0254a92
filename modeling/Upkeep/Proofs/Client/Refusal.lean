import Mathlib.Data.List.Induction
import Upkeep.Proofs.Client.Progress

/-!
This module contains what is left of a call that gives no client: nothing but its own end and the
number of times that constructors were run. It also contains when a call is refused because its name
has neither a target nor a record, and that nobody is refused any more once the name has a record.
-/

namespace Upkeep.Client

open Config

/--
Whether a call has given a client or has put one into the buffer.
-/
def Call.isServed : Call → Bool
  | .displaced .. | .closing .. | .done (.client _) => true
  | _ => false

namespace Buffer

variable {b next : Buffer} {h ms : List Mark} {a : Action}

def Acts (b : Buffer) (i : Nat) : Action → Prop
  | .begin .. => i = b.calls.length
  | .proceed j | .construct j _ | .closeNow j _ => j = i
  | _ => False

instance (b : Buffer) (i : Nat) (a : Action) : Decidable (b.Acts i a) := by
  unfold Acts
  split <;> infer_instance

/--
Whether nothing has changed but how far a call has come and that constructors were run `n` times.
-/
def OnlyAttempts (i n : Nat) (b next : Buffer) : Prop :=
  next =
    { b with
      calls := next.calls
      nextId := b.nextId + n
      tallies := { b.tallies with updates := b.tallies.updates + n } } ∧
  ∀ j : Nat, j ≠ i → next.calls[j]? = b.calls[j]?

theorem onlyAttempts_of_set {i n : Nat} {c c' : Call} (hc : b.calls[i]? = some c)
    (hnext : next =
      { b with
        calls := b.calls.set i c'
        nextId := b.nextId + n
        tallies := { b.tallies with updates := b.tallies.updates + n } }) :
    OnlyAttempts i n b next := by
  subst hnext
  refine ⟨rfl, ?_⟩
  intro j hj
  exact (getElem?_set_of_getElem? hc c' j).trans (if_neg hj)

/--
As long as a call has not got a client, its steps change nothing else.
-/
theorem Effect.onlyAttempts (he : b.Effect a next ms) {i : Nat} (ha : b.Acts i a)
    (hgift : (next.calls[i]?.bind Call.gift?) = none) :
    OnlyAttempts i (ms.count (.attempted i)) b next := by
  have hset : ∀ {j : Nat} {c c' : Call}, b.calls[j]? = some c → j = i →
      next.calls = b.calls.set j c' → c'.gift? = none := by
    intro j c c' hc hj hcalls
    subst hj
    rw [hcalls, getElem?_set_of_getElem? hc] at hgift
    simpa using hgift
  cases he with
  | idle => exact ⟨rfl, fun _ _ => rfl⟩
  | begin name options =>
    refine ⟨rfl, ?_⟩
    intro j hj
    rw [getElem?_concat]
    exact if_neg fun heq => hj (heq.trans ha.symm)
  | resolve j name options hc =>
    cases ha
    exact onlyAttempts_of_set hc rfl
  | refuse j name options hc =>
    cases ha
    exact onlyAttempts_of_set hc rfl
  | attempt j name options target client hc =>
    cases ha
    have hone : [Mark.attempted i].count (.attempted i) = 1 := by simp
    rw [hone]
    exact onlyAttempts_of_set hc rfl
  | fail j name target client o r hc =>
    cases ha
    exact onlyAttempts_of_set hc rfl
  | serve _ _ _ _ hc | reuse _ _ _ _ _ hc | build _ _ _ _ hc | place _ _ _ _ hc
  | displace _ _ _ _ _ hc | closeAtOnce _ _ _ _ _ hc | schedule _ _ _ _ _ hc
  | endCloseNow _ _ _ _ _ hc => simpa [Call.gift?] using hset hc ha rfl
  | _ => exact ha.elim

theorem refuse_step (b : Buffer) {i : Nat} {name options : String}
    (hc : b.calls[i]? = some (.resolved name options none)) (hr : b.record? name = none) :
    (b.step (.proceed i)).1.calls[i]? = some (.done (.error (.notConfigured name))) := by
  have hstep : (b.step (.proceed i)).1 = b.setCall i (.done (.error (.notConfigured name))) := by
    simp [step, proceed, serve, hc, hr]
  rw [hstep, setCall, getElem?_set_of_getElem? hc, if_pos rfl]

/--
Names do not lose their records.
-/
theorem Effect.record (he : b.Effect a next ms) {name : String}
    (hr : (b.record? name).isSome = true) : (next.record? name).isSome = true := by
  rcases he.record?_eq name with hsame | ⟨_, _, _, _, _, hnew⟩
  . exact hsame ▸ hr
  . exact Option.isSome_of_eq_some hnew

theorem record_of_run (b : Buffer) (as : List Action) {name : String}
    (hr : (b.record? name).isSome = true) : ((b.run as).record? name).isSome = true :=
  kept_by_run (fun b => (b.record? name).isSome = true) (fun b a hr => (b.step_effect a).record hr)
    b as hr

/--
Nobody is refused any more for a name with a record.
-/
theorem not_refused_of_record (b : Buffer) (as : List Action) {j : Nat} {name : String}
    (hr : (b.record? name).isSome = true)
    (hj : b.calls[j]? ≠ some (.done (.error (.notConfigured name)))) :
    (b.run as).calls[j]? ≠ some (.done (.error (.notConfigured name))) := by
  have hrun := kept_by_run (fun b => (b.record? name).isSome = true ∧
    b.calls[j]? ≠ some (.done (.error (.notConfigured name)))) ?_ b as ⟨hr, hj⟩
  . exact hrun.2
  . rintro b a ⟨hr, hj⟩
    refine ⟨(b.step_effect a).record hr, ?_⟩
    intro hd
    rcases b.step_ends a hd with hold | hends
    . exact hj hold
    . cases hends with
      | refuse _ _ _ hnone => simp [hnone] at hr

/--
A call that has given a client, or that has put one into the buffer, is for a name with a record.
-/
def Backed (b : Buffer) (h : List Mark) : Prop :=
  ∀ (i : Nat) c name seen, b.calls[i]? = some c → c.isServed = true → .resolved i name seen ∈ h →
    (b.record? name).isSome = true

namespace Backed

theorem still (hb : Backed b h) (hcalls : next.calls = b.calls)
    (hrecords : next.records = b.records) (hms : ∀ i name seen, .resolved i name seen ∉ ms) :
    Backed next (h ++ ms) := by
  intro i c name seen hc hserved hm
  rw [record?, hrecords]
  rcases List.mem_append.1 hm with hm | hm
  . exact hb i c name seen (hcalls ▸ hc) hserved hm
  . exact absurd hm (hms i name seen)

theorem of_set (hb : Backed b h) (he : b.Effect a next ms) {i : Nat} {c' : Call}
    (hcalls : next.calls = b.calls.set i c')
    (hms : ∀ j name seen, .resolved j name seen ∈ ms → j = i)
    (hself : c'.isServed = true → ∀ name seen, .resolved i name seen ∈ h ++ ms →
      (next.record? name).isSome = true) : Backed next (h ++ ms) := by
  intro j d name seen hd hserved hm
  rw [hcalls] at hd
  rcases origin_of_set hd with ⟨rfl, rfl⟩ | ⟨hj, hd⟩
  . exact hself hserved name seen hm
  . rcases List.mem_append.1 hm with hm | hm
    . exact he.record (hb j d name seen hd hserved hm)
    . exact absurd (hms j name seen hm) hj

theorem step (hb : Backed b h) (hrecounted : Recounted b h) (he : b.Effect a next ms) :
    Backed next (h ++ ms) := by
  have he' := he
  cases he with
  | begin name options =>
    intro i c n seen hc hserved hm
    rw [List.append_nil] at hm
    rcases origin_of_concat hc with ⟨_, rfl⟩ | ⟨_, hc⟩
    . simp [Call.isServed] at hserved
    . exact hb i c n seen hc hserved hm
  | resolve i name options hc =>
    refine hb.of_set he' rfl ?_ (by simp [Call.isServed])
    intro j n seen hm
    exact (Mark.resolved.inj (List.mem_singleton.1 hm)).1
  | serve i name options r hc hr | reuse i name options target r hc hr =>
    refine hb.of_set he' rfl (by simp) ?_
    intro _ n seen hm
    rw [List.append_nil] at hm
    obtain ⟨rfl, _⟩ := hrecounted.recounts i _ n seen hc hm
    exact Option.isSome_of_eq_some hr
  | place i name target client hc | displace i name target client previous hc =>
    refine hb.of_set he' rfl (by simp) ?_
    intro _ n seen hm
    obtain ⟨rfl, _⟩ := hrecounted.recounts i _ n seen hc (by simpa using hm)
    simp [record?]
  | closeAtOnce i name client previous since hc | schedule i name client previous since hc
  | endCloseNow i name client previous o hc =>
    refine hb.of_set he' rfl (by simp) ?_
    intro _ n seen hm
    exact hb i _ n seen hc rfl (by simpa using hm)
  | fail i name target client o r hc ho hr =>
    refine hb.of_set he' rfl (by simp) ?_
    intro hserved
    cases r with
    | client c => exact absurd rfl (hr c)
    | error | panicked => simp [Call.isServed] at hserved
  | refuse | attempt | build => exact hb.of_set he' rfl (by simp) (by simp [Call.isServed])
  | drain | redrain =>
    refine hb.still rfl rfl ?_
    intro i name seen hm
    simpa using eq_drained_of_mem hm
  | _ => exact hb.still rfl rfl (by simp)

theorem of_run (runtime : Runtime) (as : List Action) :
    Backed ((Buffer.start runtime).run as) ((Buffer.start runtime).history as) := by
  have hrun := effect_invariant (fun b h => Recounted b h ∧ Backed b h)
    (fun _ _ _ _ _ he hb => ⟨hb.1.step he, hb.2.step hb.1 he⟩) as _
    ⟨Recounted.start runtime, by simp [Backed, Buffer.start]⟩
  exact hrun.2

end Backed

/--
A refused call had found no target, or a blank one, and then no record of its name.
-/
theorem lookup_of_refused (runtime : Runtime) (as : List Action) {i : Nat} {name : String}
    (hd : ((Buffer.start runtime).run as).calls[i]? = some (.done (.error (.notConfigured name)))) :
    ∃ as1 as2 options, as = as1 ++ .proceed i :: as2 ∧
      ((Buffer.start runtime).run as1).calls[i]? = some (.resolved name options none) ∧
      ((Buffer.start runtime).run as1).record? name = none := by
  induction as using List.reverseRecOn with
  | nil => simp [Buffer.start, run] at hd
  | append_singleton as a ih =>
    rw [run_concat] at hd
    rcases step_ends _ a hd with hold | hends
    . obtain ⟨as1, as2, options, rfl, hc, hr⟩ := ih hold
      exact ⟨as1, as2 ++ [a], options, by simp, hc, hr⟩
    . cases hends with
      | refuse _ options hc hr => exact ⟨as, [], options, rfl, hc, hr⟩

theorem filter_isConfigured_eq_none (seen : Option Target) :
    seen.filter Target.isConfigured = none ↔
      ∀ target, seen = some target → Text.trim target.address = "" := by
  constructor
  . rintro hnone target rfl
    by_contra htrim
    simp [(filter_isConfigured (some target) target).2 ⟨rfl, htrim⟩] at hnone
  . intro hblank
    rw [Option.eq_none_iff_forall_ne_some]
    intro target hseen
    obtain ⟨hsome, htrim⟩ := (filter_isConfigured seen target).1 hseen
    exact htrim (hblank target hsome)

/--
The steps of a call that ends without a client change nothing but how far it has come and the number
of constructors that were run.
-/
theorem onlyAttempts_of_failed {b : Buffer} {as as1 as2 : List Action} {i : Nat} {r : Result}
    (hc : (b.run as).calls[i]? = some (.done r)) (hr : ∀ client, r ≠ .client client)
    (heq : as = as1 ++ a :: as2) (ha : (b.run as1).Acts i a) :
    OnlyAttempts i (((b.run as1).marks a).count (.attempted i)) (b.run as1)
      ((b.run as1).step a).1 := by
  refine ((b.run as1).step_effect a).onlyAttempts ha ?_
  -- a client that the call had got by then would be what it ends with
  rw [Option.eq_none_iff_forall_ne_some]
  intro client hgift
  have hlast := gift_of_run ((b.run as1).step a).1 as2 hgift
  rw [← run_split, ← heq, hc] at hlast
  cases r with
  | client c => exact hr c rfl
  | error | panicked => simp [Call.gift?] at hlast

theorem refused_iff (runtime : Runtime) (as : List Action) (i : Nat) (name : String) :
    ((Buffer.start runtime).run as).calls[i]? = some (.done (.error (.notConfigured name))) ↔
    ∃ as1 as2 options seen, as = as1 ++ .proceed i :: as2 ∧
      .resolved i name seen ∈ (Buffer.start runtime).history as1 ∧
      ((Buffer.start runtime).run as1).calls[i]? =
        some (.resolved name options (seen.filter Target.isConfigured)) ∧
      (∀ target, seen = some target → Text.trim target.address = "") ∧
      ((Buffer.start runtime).run as1).record? name = none := by
  constructor
  . intro hd
    obtain ⟨as1, as2, options, heq, hc, hnone⟩ := lookup_of_refused runtime as hd
    have hrecounted := Recounted.of_run runtime as1
    obtain ⟨n, seen, hm⟩ := hrecounted.looked i _ hc rfl
    obtain ⟨rfl, hseen, _⟩ := hrecounted.recounts i _ n seen hc hm
    exact ⟨as1, as2, options, seen, heq, hm, hseen ▸ hc,
      (filter_isConfigured_eq_none seen).1 hseen, hnone⟩
  . rintro ⟨as1, as2, options, seen, rfl, _, hc, hblank, hnone⟩
    rw [(filter_isConfigured_eq_none seen).2 hblank] at hc
    rw [run_split]
    exact done_of_run _ as2 (refuse_step _ hc hnone)

/--
However calls overlap: the steps of a call that ends without a client change nothing but how far it
has come and the number of constructors that were run, by at most one. A call is refused if and only
if it has found no target or a blank one, and then no record of its name. Names do not lose their
records, so that nobody is refused for a name any more once a call has given a client for it.
-/
theorem failed_calls_leave_buffer_intact (runtime : Runtime) (as : List Action) :
    let start := Buffer.start runtime
    let b := start.run as
    (∀ (i : Nat) r, b.calls[i]? = some (.done r) → (∀ client, r ≠ .client client) →
      (start.history as).count (.attempted i) ≤ 1 ∧
      ∀ as1 a as2, as = as1 ++ a :: as2 → (start.run as1).Acts i a →
        OnlyAttempts i (((start.run as1).marks a).count (.attempted i)) (start.run as1)
          ((start.run as1).step a).1) ∧
    (∀ (i : Nat) name, b.calls[i]? = some (.done (.error (.notConfigured name))) ↔
      ∃ as1 as2 options seen, as = as1 ++ .proceed i :: as2 ∧
        .resolved i name seen ∈ start.history as1 ∧
        (start.run as1).calls[i]? =
          some (.resolved name options (seen.filter Target.isConfigured)) ∧
        (∀ target, seen = some target → Text.trim target.address = "") ∧
        (start.run as1).record? name = none) ∧
    (∀ name bs, (b.record? name).isSome = true →
      ((start.run (as ++ bs)).record? name).isSome = true) ∧
    (∀ (i : Nat) name seen client, .resolved i name seen ∈ start.history as →
      b.calls[i]? = some (.done (.client client)) →
      (b.record? name).isSome = true ∧
      ∀ bs (j : Nat), b.calls[j]? ≠ some (.done (.error (.notConfigured name))) →
        (start.run (as ++ bs)).calls[j]? ≠ some (.done (.error (.notConfigured name)))) := by
  intro start b
  refine ⟨?_, refused_iff runtime as, ?_, ?_⟩
  . intro i r hc hr
    exact ⟨attempted_once runtime as i, fun as1 a as2 heq ha => onlyAttempts_of_failed hc hr heq ha⟩
  . intro name bs hr
    rw [run_append]
    exact record_of_run b bs hr
  . intro i name seen client hm hc
    have hr : (b.record? name).isSome = true := Backed.of_run runtime as i _ name seen hc rfl hm
    refine ⟨hr, ?_⟩
    intro bs j hj
    rw [run_append]
    exact not_refused_of_record b bs hr hj

/--
The constructor of the first call fails, the name of the second one is not in the table, and the
third call gets a client, the target of which is removed afterwards.
-/
def lookupsInVain : List Action :=
  [.edit (tableTo "a"), .begin "db" "", .proceed 0, .proceed 0, .construct 0 (.refused default),
   .begin "cache" "", .proceed 1, .proceed 1,
   .begin "db" "", .proceed 2, .proceed 2, .construct 2 .built, .proceed 2, .edit .empty]

def lookupOfRemoved : List Action := [.begin "db" "", .proceed 3, .proceed 3]

theorem lookupsInVain_leave_buffer_intact :
    let start := Buffer.start .around
    let b := start.run (lookupsInVain.take 3)
    (start.history lookupsInVain).count (.attempted 0) ≤ 1 ∧
    OnlyAttempts 0 1 b (b.step (.proceed 0)).1 ∧
    (start.run lookupsInVain).calls[1]? = some (.done (.error (.notConfigured "cache"))) ∧
    ((start.run lookupsInVain).record? "db").isSome = true ∧
    (start.run (lookupsInVain ++ lookupOfRemoved)).calls[3]? ≠
      some (.done (.error (.notConfigured "db"))) := by
  intro start b
  obtain ⟨hfailed, hrefused, _, hkept⟩ := failed_calls_leave_buffer_intact .around lookupsInVain
  obtain ⟨hcount, hsteps⟩ := hfailed 0 (.error (.constructionFailed "db" default))
    (by decide +kernel) (by simp)
  obtain ⟨hrecord, hlater⟩ := hkept 2 "db" (some ⟨"a", .ofSeconds 1⟩) ⟨1, "db", "a", ""⟩
    (by decide +kernel) (by decide +kernel)
  have hattempt : (b.marks (.proceed 0)).count (.attempted 0) = 1 := by decide +kernel
  refine ⟨hcount, ?_, ?_, hrecord, hlater lookupOfRemoved 3 (by decide +kernel)⟩
  . exact hattempt ▸ hsteps (lookupsInVain.take 3) (.proceed 0) (lookupsInVain.drop 4) rfl rfl
  . exact (hrefused 1 "cache").2 ⟨lookupsInVain.take 7, lookupsInVain.drop 8, "", none, rfl,
      by decide +kernel, by decide +kernel, by simp, by decide +kernel⟩

end Buffer

end Upkeep.Client
