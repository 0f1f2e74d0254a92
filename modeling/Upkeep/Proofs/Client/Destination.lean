import Upkeep.Proofs.Client.Sequential

/-!
This module contains where the clients that calls get are connected to. A call looks for its target
first, and the constructor reads the table once more, so that an edit between the two leaves a
client that is not connected to where its record says. The next call that finds another target in
the table replaces it, but one that finds the target of the record takes it for what it is not.
-/

namespace Upkeep.Client

open Config

/--
Where the constructor connects the client of a name to.
-/
def addressOf (table : TargetTable) (name : String) : String :=
  ((table.get? name).map (·.address)).getD ""

namespace Call

/--
Whether a call that has yet to run the constructor has found the address that is in the table.
-/
def Agrees (table : TargetTable) : Call → Prop
  | .resolved name _ (some target) => addressOf table name = target.address
  | _ => True

instance (table : TargetTable) (c : Call) : Decidable (c.Agrees table) := by
  unfold Agrees
  split <;> infer_instance

/--
Whether the client that the constructor of a call gives is connected to what the call has found.
-/
def IsAimed : Call → Prop
  | .constructing _ target client | .built _ target client => client.target = target.address
  | _ => True

/--
The client that a call has got and will give.
-/
def gift? : Call → Option Connection
  | .built _ _ client | .displaced _ client _ _ | .closing _ client _ | .done (.client client) =>
    some client
  | _ => none

theorem agrees_of_isOver {c : Call} (hc : c.isOver = true) (table : TargetTable) :
    c.Agrees table := by
  cases c with
  | done => trivial
  | _ => simp [isOver] at hc

theorem isAimed_of_isOver {c : Call} (hc : c.isOver = true) : c.IsAimed := by
  cases c with
  | done => trivial
  | _ => simp [isOver] at hc

theorem agrees_resolved (table : TargetTable) (name options : String) :
    (resolved name options ((table.get? name).filter Target.isConfigured)).Agrees table := by
  cases hseen : (table.get? name).filter Target.isConfigured with
  | none => trivial
  | some target =>
    have hget := (Option.filter_eq_some_iff.1 hseen).1
    simp [Agrees, addressOf, hget]

end Call

def BuiltFor (h : List Mark) (address : String) (c : Connection) : Prop :=
  ∃ i target, .built i target c ∈ h ∧ target.address = address

theorem BuiltFor.mono {h : List Mark} {address : String} {c : Connection}
    (hc : BuiltFor h address c) (ms : List Mark) : BuiltFor (h ++ ms) address c := by
  obtain ⟨i, target, hm, haddress⟩ := hc
  exact ⟨i, target, List.mem_append_left _ hm, haddress⟩

namespace Buffer

/--
Whether an action leaves the addresses alone that calls have found and not yet used.
-/
def Undisturbed (b : Buffer) : Action → Prop
  | .edit table => ∀ c ∈ b.calls, c.Agrees table
  | _ => True

instance (b : Buffer) (a : Action) : Decidable (b.Undisturbed a) := by
  unfold Undisturbed
  split <;> infer_instance

/--
Each client is connected to the address that its call has found, unless it was built in the past.
-/
structure Aimed (past : List Mark) (b : Buffer) (h : List Mark) : Prop where
  calls : ∀ c ∈ b.calls, c.Agrees b.table ∧ c.IsAimed
  built : ∀ i target client, .built i target client ∈ h →
    .built i target client ∈ past ∨ client.target = target.address

namespace Aimed

variable {b next : Buffer} {past h ms : List Mark}

theorem of_over (hover : ∀ c ∈ b.calls, c.isOver = true) : Aimed h b h := by
  refine ⟨?_, fun _ _ _ hm => Or.inl hm⟩
  intro c hc
  exact ⟨Call.agrees_of_isOver (hover c hc) b.table, Call.isAimed_of_isOver (hover c hc)⟩

theorem of_calls (hb : Aimed past b h) (hcalls : ∀ c ∈ next.calls, c.Agrees next.table ∧ c.IsAimed)
    (hms : ∀ i target client, .built i target client ∈ ms → client.target = target.address) :
    Aimed past next (h ++ ms) := by
  refine ⟨hcalls, ?_⟩
  intro i target client hm
  rcases List.mem_append.1 hm with hm | hm
  . exact hb.built i target client hm
  . exact Or.inr (hms i target client hm)

theorem still (hb : Aimed past b h) (hcalls : next.calls = b.calls) (htable : next.table = b.table)
    (hms : ∀ i target client, .built i target client ∉ ms) : Aimed past next (h ++ ms) := by
  apply hb.of_calls
  . rw [hcalls, htable]
    exact hb.calls
  . intro i target client hm
    exact absurd hm (hms i target client)

theorem of_set (hb : Aimed past b h) {i : Nat} {c' : Call} (hcalls : next.calls = b.calls.set i c')
    (htable : next.table = b.table) (hagrees : c'.Agrees b.table) (haimed : c'.IsAimed)
    (hms : ∀ i target client, .built i target client ∈ ms → client.target = target.address) :
    Aimed past next (h ++ ms) := by
  refine hb.of_calls ?_ hms
  intro c hc
  rw [hcalls] at hc
  rw [htable]
  rcases List.mem_or_eq_of_mem_set hc with hc | rfl
  . exact hb.calls c hc
  . exact ⟨hagrees, haimed⟩

theorem begin (hb : Aimed past b h) (name options : String) :
    Aimed past { b with calls := b.calls ++ [.begun name options] } (h ++ []) := by
  refine hb.of_calls ?_ (by simp)
  intro c hc
  rcases List.mem_append.1 hc with hc | hc
  . exact hb.calls c hc
  . rw [List.mem_singleton.1 hc]
    exact ⟨trivial, trivial⟩

theorem step (hb : Aimed past b h) {a : Action} (ha : b.Undisturbed a) (he : b.Effect a next ms) :
    Aimed past next (h ++ ms) := by
  cases he with
  | edit table => exact hb.of_calls (fun c hc => ⟨ha c hc, (hb.calls c hc).2⟩) (by simp)
  | begin name options => exact hb.begin name options
  | resolve i name options hc =>
    exact hb.of_set rfl rfl (Call.agrees_resolved b.table name options) trivial (by simp)
  | attempt i name options target client hc hr hid hname hseen =>
    -- the constructor reads the table at this very moment
    have hagrees : addressOf b.table name = target.address :=
      (hb.calls _ (List.mem_of_getElem? hc)).1
    exact hb.of_set rfl rfl trivial (hseen.trans hagrees) (by simp)
  | build i name target client hc =>
    have haimed : client.target = target.address := (hb.calls _ (List.mem_of_getElem? hc)).2
    refine hb.of_set rfl rfl trivial haimed ?_
    intro j wanted c hm
    obtain ⟨_, rfl, rfl⟩ := Mark.built.inj (List.mem_singleton.1 hm)
    exact haimed
  | serve | refuse | reuse | fail | place | displace | closeAtOnce | schedule | endCloseNow =>
    exact hb.of_set rfl rfl trivial trivial (by simp)
  | drain | redrain =>
    refine hb.still rfl rfl ?_
    intro i target client hm
    simpa using eq_drained_of_mem hm
  | _ => exact hb.still rfl rfl (by simp)

theorem of_run (hb : Aimed past b h) (as : List Action) (has : Obeys Undisturbed b as) :
    Aimed past (b.run as) (h ++ b.history as) :=
  run_invariant Undisturbed (Aimed past) (fun _ _ _ _ _ ha he hb => hb.step ha he) as b h hb has

end Aimed

/--
Records and calls have clients that were built for their addresses.
-/
structure Sourced (b : Buffer) (h : List Mark) : Prop where
  records : ∀ name r, b.record? name = some r → BuiltFor h r.target r.client
  calls : ∀ (i : Nat) c client name seen target, b.calls[i]? = some c → c.gift? = some client →
    .resolved i name seen ∈ h → seen.filter Target.isConfigured = some target →
    BuiltFor h target.address client

namespace Sourced

variable {b next : Buffer} {h ms : List Mark}

theorem start (runtime : Runtime) : Sourced (Buffer.start runtime) [] := by
  constructor <;> simp [Buffer.start, record?]

theorem of_calls (hb : Sourced b h)
    (hrecords : ∀ name r, next.record? name = some r → BuiltFor (h ++ ms) r.target r.client)
    (hcalls : next.calls = b.calls) (hms : ∀ i name seen, .resolved i name seen ∉ ms) :
    Sourced next (h ++ ms) := by
  refine ⟨hrecords, ?_⟩
  intro i c client name seen target hc hgift hm hseen
  rcases List.mem_append.1 hm with hm | hm
  . exact (hb.calls i c client name seen target (hcalls ▸ hc) hgift hm hseen).mono ms
  . exact absurd hm (hms i name seen)

theorem still (hb : Sourced b h) (hrecords : next.records = b.records)
    (hcalls : next.calls = b.calls) (hms : ∀ i name seen, .resolved i name seen ∉ ms) :
    Sourced next (h ++ ms) := by
  refine hb.of_calls ?_ hcalls hms
  intro name r hr
  rw [record?, hrecords] at hr
  exact (hb.records name r hr).mono ms

theorem of_set (hb : Sourced b h) {i : Nat} {c' : Call} (hcalls : next.calls = b.calls.set i c')
    (hrecords : ∀ name r, next.record? name = some r → BuiltFor (h ++ ms) r.target r.client)
    (hms : ∀ j name seen, .resolved j name seen ∈ ms → j = i)
    (hgift : ∀ client name seen target, c'.gift? = some client → .resolved i name seen ∈ h ++ ms →
      seen.filter Target.isConfigured = some target → BuiltFor (h ++ ms) target.address client) :
    Sourced next (h ++ ms) := by
  refine ⟨hrecords, ?_⟩
  intro j c client name seen target hc hclient hm hseen
  rw [hcalls] at hc
  rcases origin_of_set hc with ⟨rfl, rfl⟩ | ⟨hji, hc⟩
  . exact hgift client name seen target hclient hm hseen
  . rcases List.mem_append.1 hm with hm | hm
    . exact (hb.calls j c client name seen target hc hclient hm hseen).mono ms
    . exact absurd (hms j name seen hm) hji

theorem records_mono (hb : Sourced b h) (ms : List Mark) (name : String) (r : Record Connection)
    (hr : b.record? name = some r) : BuiltFor (h ++ ms) r.target r.client :=
  (hb.records name r hr).mono ms

theorem begin (hb : Sourced b h) (name options : String) :
    Sourced { b with calls := b.calls ++ [.begun name options] } (h ++ []) := by
  refine ⟨hb.records_mono [], ?_⟩
  intro i c client n seen target hc hclient hm hseen
  rw [List.append_nil] at hm ⊢
  rcases origin_of_concat hc with ⟨_, rfl⟩ | ⟨_, hc⟩
  . simp [Call.gift?] at hclient
  . exact hb.calls i c client n seen target hc hclient hm hseen

theorem of_same_gift (hb : Sourced b h) {i : Nat} {c c' : Call} (hc : b.calls[i]? = some c)
    (hcalls : next.calls = b.calls.set i c') (hgift : c'.gift? = c.gift?)
    (hrecords : ∀ name r, next.record? name = some r → BuiltFor (h ++ ms) r.target r.client)
    (hms : ∀ j name seen, .resolved j name seen ∉ ms) : Sourced next (h ++ ms) := by
  refine hb.of_set hcalls hrecords (fun j name seen hm => absurd hm (hms j name seen)) ?_
  intro client name seen target hclient hm hseen
  rcases List.mem_append.1 hm with hm | hm
  . exact (hb.calls i c client name seen target hc (hgift ▸ hclient) hm hseen).mono ms
  . exact absurd hm (hms i name seen)

theorem builtFor_of_built (hrecounted : Recounted b h) {i : Nat} {name : String} {target : Target}
    {client : Connection} (hc : b.calls[i]? = some (.built name target client)) :
    BuiltFor h target.address client := by
  obtain ⟨n, seen, hm⟩ := hrecounted.looked i _ hc rfl
  obtain ⟨_, _, _, _, hbuilds⟩ := hrecounted.recounts i _ n seen hc hm
  exact ⟨i, target, (mem_buildsOf h i target client).1 (by simp [hbuilds]), rfl⟩

theorem records_insert (hb : Sourced b h) (hrecounted : Recounted b h) (ms : List Mark) {i : Nat}
    {name : String} {target : Target} {client : Connection}
    (hc : b.calls[i]? = some (.built name target client)) (n : String) (r : Record Connection)
    (hr : (b.records.insert name
      (Record.make client target.address target.timeout)).get? n = some r) :
    BuiltFor (h ++ ms) r.target r.client := by
  rw [Dict.get?_insert] at hr
  split at hr
  . rw [← Option.some.inj hr]
    exact (builtFor_of_built hrecounted hc).mono ms
  . exact hb.records_mono ms n r hr

theorem step (hb : Sourced b h) (hrecounted : Recounted b h) {a : Action}
    (he : b.Effect a next ms) : Sourced next (h ++ ms) := by
  cases he with
  | begin name options => exact hb.begin name options
  | resolve i name options hc =>
    refine hb.of_set rfl (hb.records_mono _) ?_ (by simp [Call.gift?])
    intro j n seen hm
    exact (Mark.resolved.inj (List.mem_singleton.1 hm)).1
  | serve i name options r hc hr =>
    -- a call that has found a target does not come here
    refine hb.of_set rfl (hb.records_mono _) (by simp) ?_
    intro client n seen target hclient hm hseen
    rw [List.append_nil] at hm
    obtain ⟨_, hnone, _⟩ := hrecounted.recounts i _ n seen hc hm
    simp [hnone] at hseen
  | reuse i name options target r hc hr ht =>
    refine hb.of_set rfl (hb.records_mono _) (by simp) ?_
    intro client n seen wanted hclient hm hseen
    rw [List.append_nil] at hm
    obtain ⟨_, hsome, _⟩ := hrecounted.recounts i _ n seen hc hm
    have hwanted : target = wanted := Option.some.inj (hsome.symm.trans hseen)
    have hrecord : r.client = client := Option.some.inj hclient
    rw [← hwanted, ← hrecord, ← ht]
    exact hb.records_mono _ name r hr
  | build i name target client hc =>
    refine hb.of_set rfl (hb.records_mono _) (by simp) ?_
    intro c n seen wanted hclient hm hseen
    have hold : .resolved i n seen ∈ h := by simpa using hm
    obtain ⟨_, _, hsome, _⟩ := hrecounted.recounts i _ n seen hc hold
    have hwanted : target = wanted := Option.some.inj (hsome.symm.trans hseen)
    have hgift : client = c := Option.some.inj hclient
    rw [← hwanted, ← hgift]
    exact ⟨i, target, by simp, rfl⟩
  | fail i name target client o r hc ho hr =>
    refine hb.of_same_gift hc rfl ?_ (hb.records_mono _) (by simp)
    cases r with
    | client c => exact absurd rfl (hr c)
    | error | panicked => rfl
  | place i name target client hc | displace i name target client previous hc =>
    exact hb.of_same_gift hc rfl rfl (hb.records_insert hrecounted _ hc) (by simp)
  | refuse i name options hc | attempt i name options target client hc
  | closeAtOnce i name client previous since hc | schedule i name client previous since hc
  | endCloseNow i name client previous o hc =>
    exact hb.of_same_gift hc rfl rfl (hb.records_mono _) (by simp)
  | drain | redrain =>
    refine hb.still rfl rfl ?_
    intro i name seen hm
    simpa using eq_drained_of_mem hm
  | _ => exact hb.still rfl rfl (by simp)

theorem of_run (runtime : Runtime) (as : List Action) :
    Sourced ((Buffer.start runtime).run as) ((Buffer.start runtime).history as) := by
  have hrun := effect_invariant (fun b h => Recounted b h ∧ Sourced b h)
    (fun _ _ _ _ _ he hb => ⟨hb.1.step he, hb.2.step hb.1 he⟩) as _
    ⟨Recounted.start runtime, start runtime⟩
  exact hrun.2

end Sourced

/--
While nobody edits the table, each call finds in it what there was at first.
-/
def Constant (table : TargetTable) (b : Buffer) (h : List Mark) : Prop :=
  b.table = table ∧ ∀ i name seen, .resolved i name seen ∈ h → seen = table.get? name

theorem Constant.step {table : TargetTable} {b next : Buffer} {h ms : List Mark} {a : Action}
    (hb : Constant table b h) (ha : ∀ t, a ≠ .edit t) (he : b.Effect a next ms) :
    Constant table next (h ++ ms) := by
  obtain ⟨rfl, hh⟩ := hb
  cases he with
  | edit t => exact absurd rfl (ha t)
  | resolve i name options hc =>
    refine ⟨rfl, ?_⟩
    intro j n seen hm
    rcases List.mem_append.1 hm with hm | hm
    . exact hh j n seen hm
    . obtain ⟨_, rfl, rfl⟩ := Mark.resolved.inj (List.mem_singleton.1 hm)
      rfl
  | drain | redrain =>
    refine ⟨rfl, ?_⟩
    intro j n seen hm
    rcases List.mem_append.1 hm with hm | hm
    . exact hh j n seen hm
    . simpa using eq_drained_of_mem hm
  | _ => exact ⟨rfl, by simpa using hh⟩

/--
What every effect but an edit preserves is preserved by every run without edits.
-/
theorem stable_invariant (P : Buffer → List Mark → Prop)
    (hstep : ∀ b h a next ms, (∀ t, a ≠ .edit t) → b.Effect a next ms → P b h → P next (h ++ ms))
    (as : List Action) (hstable : ∀ t, .edit t ∉ as) (b : Buffer) (hb : P b []) :
    P (b.run as) (b.history as) :=
  run_invariant (fun _ a => ∀ t, a ≠ .edit t) P hstep as b [] hb
    (obeys_of_forall_mem _ b as fun _ ha _ t heq => hstable t (heq ▸ ha))

theorem Constant.of_run (b : Buffer) (as : List Action) (has : ∀ t, .edit t ∉ as) :
    Constant b.table (b.run as) (b.history as) :=
  stable_invariant (Constant b.table) (fun _ _ _ _ _ ha he hb => hb.step ha he) as has b
    ⟨rfl, by simp⟩

/--
Once all calls are over and nobody edits the table any more, a later call that gets a client for a
configured name gets one that is connected to the target of that name, or one from before that was
built for a call that had found the same address. If no edit has ever come between what a call found
and its constructor, only the first is possible.
-/
theorem settled_call_reaches_target (runtime : Runtime) (as bs : List Action)
    (hover : ∀ c ∈ ((Buffer.start runtime).run as).calls, c.isOver = true)
    (hstable : ∀ table, .edit table ∉ bs) :
    let b := (Buffer.start runtime).run as
    let h := (Buffer.start runtime).history as
    ∀ (i : Nat) name seen target client, b.calls.length ≤ i →
      .resolved i name seen ∈ (Buffer.start runtime).history (as ++ bs) →
      b.table.get? name = some target → target.isConfigured = true →
      ((Buffer.start runtime).run (as ++ bs)).calls[i]? = some (.done (.client client)) →
      (client.target ≠ target.address → BuiltFor h target.address client) ∧
      (Obeys Undisturbed (Buffer.start runtime) as → client.target = target.address) := by
  intro b h i name seen target client hi hm hget hconfigured hdone
  have hlate : .resolved i name seen ∈ b.history bs := by
    rw [history_append] at hm
    rcases List.mem_append.1 hm with hm | hm
    . obtain ⟨c, hc, _⟩ := (Recounted.of_run runtime as).known _ hm i rfl
      have hlt := (List.getElem?_eq_some_iff.1 hc).1
      exact absurd hlt (Nat.not_lt.2 hi)
    . exact hm
  have hseen : seen = some target := ((Constant.of_run b bs hstable).2 i name seen hlate).trans hget
  have hfilter : seen.filter Target.isConfigured = some target := by
    simp [hseen, hconfigured]
  obtain ⟨j, wanted, hbuilt, haddress⟩ :=
    (Sourced.of_run runtime (as ++ bs)).calls i _ client name seen target hdone rfl hm hfilter
  -- the calls of `bs` see one table only, so that what they build is connected to it
  have hquiet : Obeys Undisturbed b bs := by
    apply obeys_of_forall_mem
    intro a ha e
    cases a with
    | edit table => exact absurd ha (hstable table)
    | _ => trivial
  have haimed : Aimed h (b.run bs) (h ++ b.history bs) :=
    (Aimed.of_over hover).of_run bs hquiet
  rw [history_append] at hbuilt
  rcases haimed.built j wanted client hbuilt with hpast | htarget
  . refine ⟨fun _ => ⟨j, wanted, hpast, haddress⟩, ?_⟩
    intro has
    have hall : Aimed [] b h := (Aimed.of_over (by simp [Buffer.start])).of_run as has
    rcases hall.built j wanted client hpast with hnil | htarget
    . simp at hnil
    . exact htarget.trans haddress
  . have hreached : client.target = target.address := htarget.trans haddress
    exact ⟨fun hne => absurd hreached hne, fun _ => hreached⟩

def tableTo (address : String) : TargetTable :=
  TargetTable.empty.upsert "db" ⟨address, .ofSeconds 1⟩

/--
A call finds one address, its constructor finds another one, and then the first one is set again.
-/
def setBack : List Action :=
  [.edit (tableTo "a"), .begin "db" "", .proceed 0, .edit (tableTo "b"), .proceed 0,
   .construct 0 .built, .edit (tableTo "a"), .proceed 0]

def callAfterSetBack : List Action := [.begin "db" "", .proceed 1, .proceed 1]

theorem settled_call_gets_other_client :
    let b := (Buffer.start .around).run setBack
    (∀ c ∈ b.calls, c.isOver = true) ∧ (∀ table, .edit table ∉ callAfterSetBack) ∧
    b.table.get? "db" = some ⟨"a", .ofSeconds 1⟩ ∧
    ((Buffer.start .around).run (setBack ++ callAfterSetBack)).calls[1]? =
      some (.done (.client ⟨0, "db", "b", ""⟩)) := by
  refine ⟨by decide +kernel, by simp [callAfterSetBack], by decide +kernel, by decide +kernel⟩

/--
A target is replaced between two calls.
-/
def movedOn : List Action :=
  [.edit (tableTo "a"), .begin "db" "", .proceed 0, .proceed 0, .construct 0 .built, .proceed 0,
   .edit (tableTo "b")]

def callAfterMove : List Action :=
  [.begin "db" "", .proceed 1, .proceed 1, .construct 1 .built, .proceed 1, .proceed 1]

theorem call_after_move_reaches_target :
    ((Buffer.start .around).run (movedOn ++ callAfterMove)).calls[1]? =
      some (.done (.client ⟨1, "db", "b", ""⟩)) ∧
    (⟨1, "db", "b", ""⟩ : Connection).target = (⟨"b", .ofSeconds 1⟩ : Target).address ∧
    BuiltFor ((Buffer.start .around).history setBack) "a" ⟨0, "db", "b", ""⟩ := by
  have hmoved := settled_call_reaches_target .around movedOn callAfterMove (by decide +kernel)
    (by simp [callAfterMove]) 1 "db" (some ⟨"b", .ofSeconds 1⟩) ⟨"b", .ofSeconds 1⟩
    ⟨1, "db", "b", ""⟩ (by decide +kernel) (by decide +kernel) (by decide +kernel)
    (by decide +kernel) (by decide +kernel)
  have hback := settled_call_reaches_target .around setBack callAfterSetBack (by decide +kernel)
    (by simp [callAfterSetBack]) 1 "db" (some ⟨"a", .ofSeconds 1⟩) ⟨"a", .ofSeconds 1⟩
    ⟨0, "db", "b", ""⟩ (by decide +kernel) (by decide +kernel) (by decide +kernel)
    (by decide +kernel) (by decide +kernel)
  exact ⟨by decide +kernel, hmoved.2 (by decide +kernel), hback.1 (by decide)⟩

end Buffer

end Upkeep.Client
