import Upkeep.Proofs.Client.Destination

/-!
This module contains how calls go on: each step leaves a call as it is or brings it to its next
phase, so that what a call has got stays with it, a call that is over stays over, and no call runs
the constructor twice. Records are changed by calls that put clients into the buffer only.
-/

namespace Upkeep.Client

open Config

namespace Call

/--
How a call goes on from one phase to another.
-/
inductive Next : Call → Call → Prop where
  | resolve : Next (.begun name options) (.resolved name options wanted)
  | reuse : Next (.resolved name options wanted) (.done (.client client))
  | refuse : Next (.resolved name options none) (.done (.error (.notConfigured name)))
  | attempt : Next (.resolved name options (some target)) (.constructing name target client)
  | build : Next (.constructing name target client) (.built name target client)
  | fail (hr : ∀ c, r ≠ .client c) : Next (.constructing name target client) (.done r)
  | place : Next (.built name target client) (.done (.client client))
  | displace : Next (.built name target client) (.displaced name client previous since)
  | closeAtOnce : Next (.displaced name client previous since) (.closing name client previous)
  | schedule : Next (.displaced name client previous since) (.done (.client client))
  | endClose : Next (.closing name client previous) (.done (.client client))

theorem Next.gift? {c c' : Call} (hn : c.Next c') {client : Connection}
    (hc : c.gift? = some client) : c'.gift? = some client := by
  cases hn with
  | place | displace | closeAtOnce | schedule | endClose => exact hc
  | resolve | reuse | refuse | attempt | build | fail => simp [Call.gift?] at hc

theorem Next.isOver {c c' : Call} (hn : c.Next c') : c.isOver = false := by
  cases hn <;> rfl

end Call

namespace Buffer

variable {b next : Buffer} {h ms : List Mark} {a : Action}

/--
A step leaves a call as it is or brings it to its next phase.
-/
theorem Effect.call (he : b.Effect a next ms) {j : Nat} {c : Call} (hc : b.calls[j]? = some c) :
    ∃ c', next.calls[j]? = some c' ∧ (c' = c ∨ c.Next c') := by
  have hset : ∀ {i : Nat} {d d' : Call}, b.calls[i]? = some d → d.Next d' →
      ∃ c', (b.calls.set i d')[j]? = some c' ∧ (c' = c ∨ c.Next c') := by
    intro i d d' hd hn
    rw [getElem?_set_of_getElem? hd]
    by_cases hj : j = i
    . rw [hj, hd, Option.some.injEq] at hc
      exact ⟨d', if_pos hj, .inr (hc ▸ hn)⟩
    . exact ⟨c, by rw [if_neg hj, hc], .inl rfl⟩
  cases he with
  | begin name options =>
    have hlt := (List.getElem?_eq_some_iff.1 hc).1
    exact ⟨c, by rw [List.getElem?_append_left hlt, hc], .inl rfl⟩
  | resolve _ _ _ hd => exact hset hd .resolve
  | serve _ _ _ _ hd | reuse _ _ _ _ _ hd => exact hset hd .reuse
  | refuse _ _ _ hd => exact hset hd .refuse
  | attempt _ _ _ _ _ hd => exact hset hd .attempt
  | build _ _ _ _ hd => exact hset hd .build
  | fail _ _ _ _ _ _ hd _ hr => exact hset hd (.fail hr)
  | place _ _ _ _ hd => exact hset hd .place
  | displace _ _ _ _ _ hd => exact hset hd .displace
  | closeAtOnce _ _ _ _ _ hd => exact hset hd .closeAtOnce
  | schedule _ _ _ _ _ hd => exact hset hd .schedule
  | endCloseNow _ _ _ _ _ hd => exact hset hd .endClose
  | _ => exact ⟨c, hc, .inl rfl⟩

/--
A record is changed by a call that puts a client into the buffer, and by nothing else.
-/
theorem Effect.record?_eq (he : b.Effect a next ms) (name : String) :
    next.record? name = b.record? name ∨
    ∃ (i : Nat) (wanted : Target) (client : Connection),
      a = .proceed i ∧ b.calls[i]? = some (.built name wanted client) ∧
      next.record? name = some (Record.make client wanted.address wanted.timeout) := by
  have hinsert : ∀ {i : Nat} {n : String} {wanted : Target} {client : Connection},
      a = .proceed i → b.calls[i]? = some (.built n wanted client) →
      next.records = b.records.insert n (Record.make client wanted.address wanted.timeout) →
      next.record? name = b.record? name ∨
      ∃ (i : Nat) (wanted : Target) (client : Connection),
        a = .proceed i ∧ b.calls[i]? = some (.built name wanted client) ∧
        next.record? name = some (Record.make client wanted.address wanted.timeout) := by
    intro i n wanted client ha hc hrecords
    rw [record?, hrecords, Dict.get?_insert]
    by_cases hn : name = n
    . subst hn
      exact .inr ⟨i, wanted, client, ha, hc, if_pos rfl⟩
    . exact .inl (if_neg hn)
  cases he with
  | place i n wanted client hc => exact hinsert rfl hc rfl
  | displace i n wanted client previous hc => exact hinsert rfl hc rfl
  | _ => exact .inl rfl

theorem run_split (b : Buffer) (as bs : List Action) (a : Action) :
    b.run (as ++ a :: bs) = ((b.run as).step a).1.run bs :=
  b.run_append as (a :: bs)

theorem kept_by_run (P : Buffer → Prop) (hstep : ∀ b a, P b → P (b.step a).1) (b : Buffer)
    (as : List Action) (hb : P b) : P (b.run as) :=
  Run.invariant_of_step (fun (b : Buffer) a => (b.step a).1) marks (fun b _ => P b)
    (fun b _ a hb => hstep b a hb) as b [] hb

/--
A call that is over stays as it is.
-/
theorem done_of_run (b : Buffer) (as : List Action) {i : Nat} {r : Result}
    (hc : b.calls[i]? = some (.done r)) : (b.run as).calls[i]? = some (.done r) := by
  refine kept_by_run (fun b => b.calls[i]? = some (.done r)) ?_ b as hc
  intro b a hc
  obtain ⟨c', hc', rfl | hn⟩ := (b.step_effect a).call hc
  . exact hc'
  . simpa [Call.isOver] using hn.isOver

/--
A call that has got a client keeps it.
-/
theorem gift_of_run (b : Buffer) (as : List Action) {i : Nat} {client : Connection}
    (hgift : b.calls[i]?.bind Call.gift? = some client) :
    (b.run as).calls[i]?.bind Call.gift? = some client := by
  refine kept_by_run (fun b => b.calls[i]?.bind Call.gift? = some client) ?_ b as hgift
  intro b a hgift
  obtain ⟨c, hc, hclient⟩ := Option.bind_eq_some_iff.1 hgift
  obtain ⟨c', hc', rfl | hn⟩ := (b.step_effect a).call hc
  . exact Option.bind_eq_some_iff.2 ⟨c', hc', hclient⟩
  . exact Option.bind_eq_some_iff.2 ⟨c', hc', hn.gift? hclient⟩

/--
How an action ends a call. Of calls that give clients nothing more is said.
-/
inductive Ends (b : Buffer) (i : Nat) : Action → Result → Prop where
  | client (a : Action) (client : Connection) : Ends b i a (.client client)
  | refuse (name options : String) (hc : b.calls[i]? = some (.resolved name options none))
    (hr : b.record? name = none) : Ends b i (.proceed i) (.error (.notConfigured name))
  | fail (name : String) (cause : Failure) :
    Ends b i (.construct i (.refused cause)) (.error (.constructionFailed name cause))
  | panic (p : Task.Payload) : Ends b i (.construct i (.panicked p)) (.panicked p)

theorem construct_ends (b : Buffer) (i : Nat) (o : BuildOutcome) {j : Nat} {r : Result}
    (hd : (b.step (.construct i o)).1.calls[j]? = some (.done r)) :
    b.calls[j]? = some (.done r) ∨ b.Ends j (.construct i o) r := by
  by_cases h : ∃ name target client, b.calls[i]? = some (.constructing name target client)
  . obtain ⟨name, target, client, hc⟩ := h
    cases o with
    | built =>
      simp only [step, construct, hc, setCall] at hd
      rcases origin_of_set hd with ⟨_, heq⟩ | ⟨_, hd⟩
      . simp at heq
      . exact .inl hd
    | refused cause =>
      simp only [step, construct, hc, setCall] at hd
      rcases origin_of_set hd with ⟨rfl, heq⟩ | ⟨_, hd⟩
      . rw [Call.done.inj heq]
        exact .inr (.fail name cause)
      . exact .inl hd
    | panicked p =>
      simp only [step, construct, hc, setCall] at hd
      rcases origin_of_set hd with ⟨rfl, heq⟩ | ⟨_, hd⟩
      . rw [Call.done.inj heq]
        exact .inr (.panic p)
      . exact .inl hd
  . simp only [step, construct] at hd
    split at hd
    . next hc => exact absurd ⟨_, _, _, hc⟩ h
    . exact .inl hd

/--
A call that is over was over before, or was ended by the action.
-/
theorem step_ends (b : Buffer) (a : Action) {j : Nat} {r : Result}
    (hd : (b.step a).1.calls[j]? = some (.done r)) :
    b.calls[j]? = some (.done r) ∨ b.Ends j a r := by
  by_cases ha : ∃ i o, a = .construct i o
  . obtain ⟨i, o, rfl⟩ := ha
    exact b.construct_ends i o hd
  . have he := b.step_effect a
    generalize (b.step a).1 = next at hd he
    generalize b.marks a = ms at he
    have hset : ∀ {i : Nat} {c' : Call}, next.calls = b.calls.set i c' →
        (∀ r', c' = .done r' → ∃ client, r' = .client client) →
        b.calls[j]? = some (.done r) ∨ b.Ends j a r := by
      intro i c' hcalls hclient
      rw [hcalls] at hd
      rcases origin_of_set hd with ⟨_, heq⟩ | ⟨_, hd⟩
      . obtain ⟨client, rfl⟩ := hclient r heq.symm
        exact .inr (.client a client)
      . exact .inl hd
    cases he with
    | refuse i name options hc hr =>
      rcases origin_of_set hd with ⟨rfl, heq⟩ | ⟨_, hd⟩
      . rw [Call.done.inj heq]
        exact .inr (.refuse name options hc hr)
      . exact .inl hd
    | begin name options =>
      rcases origin_of_concat hd with ⟨_, heq⟩ | ⟨_, hd⟩
      . simp at heq
      . exact .inl hd
    | build i => exact absurd ⟨i, _, rfl⟩ ha
    | fail i _ _ _ o => exact absurd ⟨i, o, rfl⟩ ha
    | resolve | serve | reuse | attempt | place | displace | closeAtOnce | schedule
    | endCloseNow => exact hset rfl (by simp)
    | _ => exact .inl hd

theorem count_attempted_step (hb : Recounted b h) (hh : ∀ i, h.count (.attempted i) ≤ 1)
    (he : b.Effect a next ms) (i : Nat) : (h ++ ms).count (.attempted i) ≤ 1 := by
  have hnone : Mark.attempted i ∉ ms → (h ++ ms).count (.attempted i) ≤ 1 := by
    intro hms
    rw [List.count_append, List.count_eq_zero.2 hms]
    exact hh i
  cases he with
  | attempt j name options target client hc =>
    by_cases hj : i = j
    . subst hj
      obtain ⟨n, seen, hm⟩ := hb.looked i _ hc rfl
      obtain ⟨_, _, hfirst, _⟩ := hb.recounts i _ n seen hc hm
      rw [List.count_append, List.count_eq_zero.2 hfirst]
      simp
    . exact hnone (by simp [hj])
  | drain | redrain =>
    apply hnone
    intro hm
    simpa using eq_drained_of_mem hm
  | _ => exact hnone (by simp)

/--
Each call runs the constructor at most once.
-/
theorem attempted_once (runtime : Runtime) (as : List Action) (i : Nat) :
    ((Buffer.start runtime).history as).count (.attempted i) ≤ 1 := by
  have hrun := effect_invariant (fun b h => Recounted b h ∧ ∀ i, h.count (.attempted i) ≤ 1)
    (fun _ _ _ _ _ he hb => ⟨hb.1.step he, count_attempted_step hb.1 hb.2 he⟩) as _
    ⟨Recounted.start runtime, by simp⟩
  exact hrun.2 i

end Buffer

end Upkeep.Client
