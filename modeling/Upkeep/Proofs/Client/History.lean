import Upkeep.Client.Buffer
import Upkeep.Proofs.Lists
import Upkeep.Proofs.Run

/-!
This module contains the history of a buffer: what its calls and drains did, in the order in which
they did it. Each step of a buffer has one of a small number of effects. An effect says what held
before it, what the buffer is after it, and what it adds to the history, so that the proofs about
buffers go by cases on effects and do not open the step function again.
-/

namespace Upkeep.Client

open Config

/--
Something that a call or a drain did. A call looks for its target in the table, runs the
constructor, gets a client from it, and takes the previous client out of the buffer. A drain ends.
-/
inductive Mark where
  | resolved (call : Nat) (name : String) (seen : Option Target)
  | attempted (call : Nat)
  | built (call : Nat) (target : Target) (client : Connection)
  | displaced (client : Connection) (time : Span)
  | drained (drain : Nat)
  deriving DecidableEq

def Mark.build? : Mark → Option (Target × Connection)
  | .built _ target client => some (target, client)
  | _ => none

def builds (h : List Mark) : List (Target × Connection) := h.filterMap Mark.build?

def builtClients (h : List Mark) : List Connection := (builds h).map Prod.snd

def lastBuild? (h : List Mark) (name : String) : Option (Target × Connection) :=
  ((builds h).filter (·.2.name = name)).getLast?

@[simp]
theorem builds_nil : builds [] = [] := rfl

@[simp]
theorem builds_append (h ms : List Mark) : builds (h ++ ms) = builds h ++ builds ms := by
  simp [builds]

@[simp]
theorem builtClients_append (h ms : List Mark) :
    builtClients (h ++ ms) = builtClients h ++ builtClients ms := by
  simp [builtClients]

theorem builtClients_eq_nil (ms : List Mark) (h : builds ms = []) : builtClients ms = [] := by
  simp [builtClients, h]

theorem mem_builtClients (h : List Mark) (c : Connection) :
    c ∈ builtClients h ↔ ∃ i target, .built i target c ∈ h := by
  simp only [builtClients, builds, List.mem_map, List.mem_filterMap]
  constructor
  . rintro ⟨⟨target, d⟩, ⟨m, hm, hbuild⟩, rfl⟩
    cases m with
    | built i target' d' =>
      simp only [Mark.build?, Option.some.injEq, Prod.mk.injEq] at hbuild
      exact ⟨i, target', hbuild.2 ▸ hm⟩
    | resolved | attempted | displaced | drained => simp [Mark.build?] at hbuild
  . rintro ⟨i, target, hm⟩
    exact ⟨(target, c), ⟨_, hm, rfl⟩, rfl⟩

def Tallies.ended (t : Tallies) : CloseOutcome → Tallies
  | .closed => { t with closed := t.closed + 1 }
  | _ => { t with failed := t.failed + 1 }

namespace Buffer

/--
What a call did when it went from one phase to another.
-/
def phaseMarks (b : Buffer) (i : Nat) : Call → Call → List Mark
  | .begun name _, .resolved .. => [.resolved i name (b.table.get? name)]
  | .resolved .., .constructing .. => [.attempted i]
  | .constructing .., .built _ target client => [.built i target client]
  | .built .., .displaced _ _ previous _ => [.displaced previous.client b.clock]
  | _, _ => []

def callMarks (b next : Buffer) (i : Nat) : List Mark :=
  match b.calls[i]?, next.calls[i]? with
  | some c, some c' => b.phaseMarks i c c'
  | _, _ => []

/--
What an action adds to the history, seen from the buffer before it and after it.
-/
def marks (b : Buffer) (a : Action) : List Mark :=
  let next := (b.step a).1
  match a with
  | .proceed i | .construct i _ | .closeNow i _ => b.callMarks next i
  | .drain =>
    match next.drains[b.drains.length]? with
    | some none => [.drained b.drains.length]
    | _ => []
  | .redrain d =>
    match b.drains[d]?, next.drains[d]? with
    | some (some _), some none => [.drained d]
    | _, _ => []
  | _ => []

def history (b : Buffer) (as : List Action) : List Mark :=
  Run.history (fun b a => (b.step a).1) marks b as

/--
What an action does to a buffer, and what it adds to the history.
-/
inductive Effect (b : Buffer) : Action → Buffer → List Mark → Prop where
  | idle (a : Action) : Effect b a b []
  | edit (table : TargetTable) : Effect b (.edit table) { b with table } []
  | begin (name options : String) :
    Effect b (.begin name options) { b with calls := b.calls ++ [.begun name options] } []
  | resolve (i : Nat) (name options : String) (hc : b.calls[i]? = some (.begun name options)) :
    Effect b (.proceed i)
      { b with
        calls := b.calls.set i
          (.resolved name options ((b.table.get? name).filter Target.isConfigured)) }
      [.resolved i name (b.table.get? name)]
  | serve (i : Nat) (name options : String) (r : Record Connection)
    (hc : b.calls[i]? = some (.resolved name options none)) (hr : b.record? name = some r) :
    Effect b (.proceed i) { b with calls := b.calls.set i (.done (.client r.client)) } []
  | refuse (i : Nat) (name options : String)
    (hc : b.calls[i]? = some (.resolved name options none)) (hr : b.record? name = none) :
    Effect b (.proceed i)
      { b with calls := b.calls.set i (.done (.error (.notConfigured name))) } []
  | reuse (i : Nat) (name options : String) (target : Target) (r : Record Connection)
    (hc : b.calls[i]? = some (.resolved name options (some target)))
    (hr : b.record? name = some r) (ht : r.target = target.address) :
    Effect b (.proceed i) { b with calls := b.calls.set i (.done (.client r.client)) } []
  | attempt (i : Nat) (name options : String) (target : Target) (client : Connection)
    (hc : b.calls[i]? = some (.resolved name options (some target)))
    (hr : ∀ r, b.record? name = some r → r.target ≠ target.address)
    (hid : client.id = b.nextId) (hname : client.name = name)
    (hseen : client.target = ((b.table.get? name).map (·.address)).getD "") :
    Effect b (.proceed i)
      { b with
        calls := b.calls.set i (.constructing name target client)
        nextId := b.nextId + 1
        tallies := { b.tallies with updates := b.tallies.updates + 1 } }
      [.attempted i]
  | build (i : Nat) (name : String) (target : Target) (client : Connection)
    (hc : b.calls[i]? = some (.constructing name target client)) :
    Effect b (.construct i .built)
      { b with calls := b.calls.set i (.built name target client) } [.built i target client]
  | fail (i : Nat) (name : String) (target : Target) (client : Connection) (o : BuildOutcome)
    (r : Result) (hc : b.calls[i]? = some (.constructing name target client)) (ho : o ≠ .built)
    (hr : ∀ c, r ≠ .client c) :
    Effect b (.construct i o) { b with calls := b.calls.set i (.done r) } []
  | place (i : Nat) (name : String) (target : Target) (client : Connection)
    (hc : b.calls[i]? = some (.built name target client)) (hr : b.record? name = none) :
    Effect b (.proceed i)
      { b with
        calls := b.calls.set i (.done (.client client))
        records := b.records.insert name (Record.make client target.address target.timeout) } []
  | displace (i : Nat) (name : String) (target : Target) (client : Connection)
    (previous : Record Connection) (hc : b.calls[i]? = some (.built name target client))
    (hr : b.record? name = some previous) :
    Effect b (.proceed i)
      { b with
        calls := b.calls.set i (.displaced name client previous b.clock)
        records := b.records.insert name (Record.make client target.address target.timeout) }
      [.displaced previous.client b.clock]
  | closeAtOnce (i : Nat) (name : String) (client : Connection) (previous : Record Connection)
    (since : Span) (hc : b.calls[i]? = some (.displaced name client previous since))
    (ha : b.runtime = .absent) :
    Effect b (.proceed i)
      { b with
        calls := b.calls.set i (.closing name client previous)
        closings := b.closings ++ [⟨b.clock, previous.client⟩] } []
  | schedule (i : Nat) (name : String) (client : Connection) (previous : Record Connection)
    (since : Span) (hc : b.calls[i]? = some (.displaced name client previous since))
    (ha : b.runtime ≠ .absent) :
    Effect b (.proceed i)
      { b with
        calls := b.calls.set i (.done (.client client))
        teardowns := b.teardowns ++
          [⟨name, previous, since, if b.runtime.isRunning then .ready else .cancelled⟩]
        registered := b.prune.registered ++ [b.teardowns.length] } []
  | endCloseNow (i : Nat) (name : String) (client : Connection) (previous : Record Connection)
    (o : CloseOutcome) (hc : b.calls[i]? = some (.closing name client previous)) :
    Effect b (.closeNow i o)
      { b with
        calls := b.calls.set i (.done (.client client))
        tallies := b.tallies.ended o } []
  | sleep (i : Nat) (t : Teardown) (ht : b.teardowns[i]? = some t) (hp : t.phase = .ready)
    (hg : t.previous.grace ≠ .zero) :
    Effect b (.turn i)
      { b with
        teardowns := b.teardowns.set i
          { t with phase := .asleep (b.clock + t.previous.grace) } } []
  | wake (i : Nat) (t : Teardown) (ht : b.teardowns[i]? = some t)
    (hp : t.phase = .ready ∧ t.previous.grace = .zero ∨
      ∃ due, t.phase = .asleep due ∧ due ≤ b.clock) :
    Effect b (.turn i)
      { b with
        teardowns := b.teardowns.set i { t with phase := .closing }
        closings := b.closings ++ [⟨b.clock, t.previous.client⟩] } []
  | endCloseLater (i : Nat) (t : Teardown) (o : CloseOutcome) (ht : b.teardowns[i]? = some t)
    (hp : t.phase = .closing) :
    Effect b (.closeLater i o)
      { b with
        teardowns := b.teardowns.set i { t with phase := .finished }
        tallies := b.tallies.ended o } []
  | prune : Effect b .prune b.prune []
  | drain :
    Effect b .drain b.drain (if b.registered = [] then [.drained b.drains.length] else [])
  | redrain (d : Nat) (batch : List Nat) (hd : b.drains[d]? = some (some batch))
    (hover : ∀ i ∈ batch, b.isOver i = true) :
    Effect b (.redrain d)
      { b with drains := b.drains.set d b.nextBatch, registered := [] }
      (if b.registered = [] then [.drained d] else [])
  | abandon (d : Nat) : Effect b (.abandon d) (b.abandon d) []
  | pass (time : Span) : Effect b (.pass time) { b with clock := b.clock + time } []
  | shutdown : Effect b .shutdown b.shutdown []
  | enter : Effect b .enter { b with runtime := b.runtime.enter } []
  | leave : Effect b .leave { b with runtime := b.runtime.leave } []

theorem eq_drained_of_mem {p : Prop} [Decidable p] {m : Mark} {d : Nat}
    (hm : m ∈ if p then [.drained d] else []) : m = .drained d := by
  split at hm
  . exact List.mem_singleton.1 hm
  . simp at hm

theorem closed_fst (b : Buffer) (name label : String) (previous : Record Connection)
    (o : CloseOutcome) :
    (b.closed name label previous o).1 = { b with tallies := b.tallies.ended o } := by
  cases o <;> rfl

theorem schedule_of_ne_absent (b : Buffer) (i : Nat) (name : String) (client : Connection)
    (previous : Record Connection) (since : Span) (ha : b.runtime ≠ .absent) :
    (b.schedule i name client previous since).1 =
      { b with
        calls := b.calls.set i (.done (.client client))
        teardowns := b.teardowns ++
          [⟨name, previous, since, if b.runtime.isRunning then .ready else .cancelled⟩]
        registered := b.prune.registered ++ [b.teardowns.length] } := by
  cases hr : b.runtime with
  | absent => exact absurd hr ha
  | around | given | stopped => simp [schedule, hr, prune, setCall]

theorem callMarks_of_set (b next : Buffer) (i : Nat) (c c' : Call) (hc : b.calls[i]? = some c)
    (hn : next.calls = b.calls.set i c') : b.callMarks next i = b.phaseMarks i c c' := by
  simp only [callMarks, hn, hc, getElem?_set_of_getElem? hc, if_true]

theorem phaseMarks_self (b : Buffer) (i : Nat) (c : Call) : b.phaseMarks i c c = [] := by
  cases c <;> rfl

theorem callMarks_self (b : Buffer) (i : Nat) : b.callMarks b i = [] := by
  cases hc : b.calls[i]? <;> simp [callMarks, hc, phaseMarks_self]

theorem effect_of_set (b next : Buffer) (a : Action) (i : Nat) (c c' : Call)
    (ha : b.marks a = b.callMarks (b.step a).1 i) (hstep : (b.step a).1 = next)
    (hc : b.calls[i]? = some c) (hn : next.calls = b.calls.set i c')
    (h : b.Effect a next (b.phaseMarks i c c')) : b.Effect a (b.step a).1 (b.marks a) := by
  rw [ha, hstep, callMarks_of_set b next i c c' hc hn]
  exact h

theorem effect_of_idle (b : Buffer) (a : Action) (hstep : (b.step a).1 = b)
    (ha : b.marks a = []) : b.Effect a (b.step a).1 (b.marks a) := by
  rw [ha, hstep]
  exact .idle a

theorem proceed_effect_of_resolved (b : Buffer) (i : Nat) (name options : String)
    (target : Option Target) (hc : b.calls[i]? = some (.resolved name options target)) :
    b.Effect (.proceed i) (b.step (.proceed i)).1 (b.marks (.proceed i)) := by
  cases target with
  | none =>
    have hstep : (b.step (.proceed i)).1 = (b.serve i name).1 := by simp [step, proceed, hc]
    cases hr : b.record? name with
    | some r =>
      simp only [serve, hr] at hstep
      exact effect_of_set b _ _ i _ _ rfl hstep hc rfl (.serve i name options r hc hr)
    | none =>
      simp only [serve, hr] at hstep
      exact effect_of_set b _ _ i _ _ rfl hstep hc rfl (.refuse i name options hc hr)
  | some target =>
    have hstep : (b.step (.proceed i)).1 = b.compare i name options target := by
      simp [step, proceed, hc]
    cases hr : (b.record? name).filter (·.target = target.address) with
    | some r =>
      simp only [compare, hr] at hstep
      obtain ⟨hr, ht⟩ := Option.filter_eq_some_iff.1 hr
      have heff := Effect.reuse i name options target r hc hr (by simpa using ht)
      exact effect_of_set b _ _ i _ _ rfl hstep hc rfl heff
    | none =>
      simp only [compare, hr] at hstep
      have hne := Option.filter_eq_none_iff.1 hr
      have heff := Effect.attempt i name options target
        ⟨b.nextId, name, ((b.table.get? name).map (·.address)).getD "", options⟩ hc
        (by simpa using hne) rfl rfl rfl
      exact effect_of_set b _ _ i _ _ rfl hstep hc rfl heff

theorem proceed_effect_of_built (b : Buffer) (i : Nat) (name : String) (target : Target)
    (client : Connection) (hc : b.calls[i]? = some (.built name target client)) :
    b.Effect (.proceed i) (b.step (.proceed i)).1 (b.marks (.proceed i)) := by
  have hstep : (b.step (.proceed i)).1 = (b.swap i name target client).1 := by
    simp [step, proceed, hc]
  cases hr : b.record? name with
  | some previous =>
    simp only [swap, hr] at hstep
    exact effect_of_set b _ _ i _ _ rfl hstep hc rfl (.displace i name target client previous hc hr)
  | none =>
    simp only [swap, hr] at hstep
    exact effect_of_set b _ _ i _ _ rfl hstep hc rfl (.place i name target client hc hr)

theorem proceed_effect_of_displaced (b : Buffer) (i : Nat) (name : String) (client : Connection)
    (previous : Record Connection) (since : Span)
    (hc : b.calls[i]? = some (.displaced name client previous since)) :
    b.Effect (.proceed i) (b.step (.proceed i)).1 (b.marks (.proceed i)) := by
  have hstep : (b.step (.proceed i)).1 = (b.schedule i name client previous since).1 := by
    simp [step, proceed, hc]
  by_cases ha : b.runtime = .absent
  . simp only [schedule, ha] at hstep
    exact effect_of_set b _ _ i _ _ rfl hstep hc rfl
      (.closeAtOnce i name client previous since hc ha)
  . rw [schedule_of_ne_absent b i name client previous since ha] at hstep
    exact effect_of_set b _ _ i _ _ rfl hstep hc rfl (.schedule i name client previous since hc ha)

theorem proceed_effect (b : Buffer) (i : Nat) :
    b.Effect (.proceed i) (b.step (.proceed i)).1 (b.marks (.proceed i)) := by
  cases hc : b.calls[i]? with
  | none =>
    have hstep : (b.step (.proceed i)).1 = b := by simp [step, proceed, hc]
    apply effect_of_idle b _ hstep
    simp [marks, callMarks, hc]
  | some c =>
    cases c with
    | begun name options =>
      have hstep : (b.step (.proceed i)).1 = b.resolve i name options := by
        simp [step, proceed, hc]
      exact effect_of_set b _ _ i _ _ rfl hstep hc rfl (.resolve i name options hc)
    | resolved name options target => exact b.proceed_effect_of_resolved i name options target hc
    | built name target client => exact b.proceed_effect_of_built i name target client hc
    | displaced name client previous since =>
      exact b.proceed_effect_of_displaced i name client previous since hc
    | constructing | closing | done =>
      have hstep : (b.step (.proceed i)).1 = b := by simp [step, proceed, hc]
      apply effect_of_idle b _ hstep
      simp only [marks, hstep, callMarks_self]

theorem construct_effect (b : Buffer) (i : Nat) (o : BuildOutcome) :
    b.Effect (.construct i o) (b.step (.construct i o)).1 (b.marks (.construct i o)) := by
  by_cases h : ∃ name target client, b.calls[i]? = some (.constructing name target client)
  . obtain ⟨name, target, client, hc⟩ := h
    cases o with
    | built =>
      have hstep : (b.step (.construct i .built)).1 = b.setCall i (.built name target client) := by
        simp [step, construct, hc]
      exact effect_of_set b _ _ i _ _ rfl hstep hc rfl (.build i name target client hc)
    | refused cause =>
      have hstep : (b.step (.construct i (.refused cause))).1 =
          b.setCall i (.done (.error (.constructionFailed name cause))) := by
        simp [step, construct, hc]
      exact effect_of_set b _ _ i _ _ rfl hstep hc rfl
        (.fail i name target client _ _ hc (by simp) (by simp))
    | panicked p =>
      have hstep : (b.step (.construct i (.panicked p))).1 = b.setCall i (.done (.panicked p)) := by
        simp [step, construct, hc]
      exact effect_of_set b _ _ i _ _ rfl hstep hc rfl
        (.fail i name target client _ _ hc (by simp) (by simp))
  . have hstep : (b.step (.construct i o)).1 = b := by
      simp only [step, construct]
      split
      . next hc => exact absurd ⟨_, _, _, hc⟩ h
      . rfl
    apply effect_of_idle b _ hstep
    simp only [marks, hstep, callMarks_self]

theorem closeNow_effect (b : Buffer) (i : Nat) (o : CloseOutcome) :
    b.Effect (.closeNow i o) (b.step (.closeNow i o)).1 (b.marks (.closeNow i o)) := by
  by_cases h : ∃ name client previous, b.calls[i]? = some (.closing name client previous)
  . obtain ⟨name, client, previous, hc⟩ := h
    have hstep : (b.step (.closeNow i o)).1 =
        { b.setCall i (.done (.client client)) with tallies := b.tallies.ended o } := by
      simp [step, closeNow, hc, closed_fst, setCall]
    exact effect_of_set b _ _ i _ _ rfl hstep hc rfl (.endCloseNow i name client previous o hc)
  . have hstep : (b.step (.closeNow i o)).1 = b := by
      simp only [step, closeNow]
      split
      . next hc => exact absurd ⟨_, _, _, hc⟩ h
      . rfl
    apply effect_of_idle b _ hstep
    simp only [marks, hstep, callMarks_self]

theorem setPhase_eq_set (b : Buffer) (i : Nat) (p : Phase) (t : Teardown)
    (ht : b.teardowns[i]? = some t) :
    b.setPhase i p = { b with teardowns := b.teardowns.set i { t with phase := p } } := by
  rw [setPhase, modify_eq_set ht]

theorem turn_effect (b : Buffer) (i : Nat) : b.Effect (.turn i) (b.turn i) [] := by
  unfold turn
  split
  . next t ht =>
    have hsleep := b.setPhase_eq_set i (.asleep (b.clock + t.previous.grace)) t ht
    have hclose := (b.handOver t.previous.client).setPhase_eq_set i .closing t ht
    split
    . next hp =>
      split
      . next hg =>
        rw [startClosing, hclose]
        exact .wake i t ht (Or.inl ⟨hp, hg⟩)
      . next hg =>
        rw [hsleep]
        exact .sleep i t ht hp hg
    . next due hp =>
      split
      . next hdue =>
        rw [startClosing, hclose]
        exact .wake i t ht (Or.inr ⟨due, hp, hdue⟩)
      . exact .idle _
    . exact .idle _
  . exact .idle _

theorem closeLater_effect (b : Buffer) (i : Nat) (o : CloseOutcome) :
    b.Effect (.closeLater i o) (b.closeLater i o).1 [] := by
  unfold closeLater
  split
  . next t ht =>
    split
    . next hp =>
      rw [closed_fst, b.setPhase_eq_set i .finished t ht]
      exact .endCloseLater i t o ht hp
    . exact .idle _
  . exact .idle _

theorem nextBatch_eq (b : Buffer) :
    b.nextBatch = if b.registered = [] then none else some b.registered := by
  simp [nextBatch, List.isEmpty_iff]

theorem drain_effect (b : Buffer) : b.Effect .drain (b.step .drain).1 (b.marks .drain) := by
  have hm : b.marks .drain = if b.registered = [] then [.drained b.drains.length] else [] := by
    simp only [marks, step, drain, List.getElem?_concat_length, nextBatch_eq]
    split <;> simp_all
  rw [hm]
  exact .drain

theorem redrain_effect (b : Buffer) (d : Nat) :
    b.Effect (.redrain d) (b.step (.redrain d)).1 (b.marks (.redrain d)) := by
  by_cases h : ∃ batch, b.drains[d]? = some (some batch) ∧ ∀ i ∈ batch, b.isOver i = true
  . obtain ⟨batch, hd, hover⟩ := h
    have hstep : (b.step (.redrain d)).1 =
        { b with drains := b.drains.set d b.nextBatch, registered := [] } := by
      have hall : batch.all b.isOver = true := List.all_eq_true.2 hover
      simp [step, redrain, hd, hall]
    have hm : b.marks (.redrain d) = if b.registered = [] then [.drained d] else [] := by
      simp only [marks, hstep, hd, getElem?_set_of_getElem? hd, if_true, nextBatch_eq]
      split <;> simp_all
    rw [hm, hstep]
    exact .redrain d batch hd hover
  . have hstep : (b.step (.redrain d)).1 = b := by
      simp only [step, redrain]
      split
      . next batch hd =>
        split
        . next hall => exact absurd ⟨batch, hd, List.all_eq_true.1 hall⟩ h
        . rfl
      . rfl
    apply effect_of_idle b _ hstep
    simp only [marks, hstep]
    split <;> simp_all

theorem step_effect (b : Buffer) (a : Action) : b.Effect a (b.step a).1 (b.marks a) := by
  cases a with
  | edit table => exact .edit table
  | begin name options => exact .begin name options
  | proceed i => exact b.proceed_effect i
  | construct i o => exact b.construct_effect i o
  | closeNow i o => exact b.closeNow_effect i o
  | turn i => exact b.turn_effect i
  | closeLater i o => exact b.closeLater_effect i o
  | prune => exact .prune
  | drain => exact b.drain_effect
  | redrain d => exact b.redrain_effect d
  | abandon d => exact .abandon d
  | pass time => exact .pass time
  | shutdown => exact .shutdown
  | enter => exact .enter
  | leave => exact .leave

def Obeys (rule : Buffer → Action → Prop) (b : Buffer) (as : List Action) : Prop :=
  Run.Obeys (fun b a => (b.step a).1) rule b as

instance (rule : Buffer → Action → Prop) [∀ b a, Decidable (rule b a)] (b : Buffer)
    (as : List Action) : Decidable (Obeys rule b as) :=
  inferInstanceAs (Decidable (Run.Obeys _ rule b as))

theorem obeys_of_forall_mem (rule : Buffer → Action → Prop) (b : Buffer) (as : List Action)
    (h : ∀ a ∈ as, ∀ b, rule b a) : Obeys rule b as :=
  Run.obeys_of_forall_mem _ rule b as h

theorem run_append (b : Buffer) (as bs : List Action) : b.run (as ++ bs) = (b.run as).run bs :=
  List.foldl_append

theorem run_concat (b : Buffer) (as : List Action) (a : Action) :
    b.run (as ++ [a]) = ((b.run as).step a).1 :=
  b.run_append as [a]

theorem history_append (b : Buffer) (as bs : List Action) :
    b.history (as ++ bs) = b.history as ++ (b.run as).history bs :=
  Run.history_append _ marks b as bs

/--
What every effect that keeps to the rule preserves is preserved by every run that keeps to it.
-/
theorem run_invariant (rule : Buffer → Action → Prop) (P : Buffer → List Mark → Prop)
    (hstep : ∀ b h a next ms, rule b a → b.Effect a next ms → P b h → P next (h ++ ms))
    (as : List Action) (b : Buffer) (h : List Mark) (hb : P b h) (hrule : Obeys rule b as) :
    P (b.run as) (h ++ b.history as) :=
  Run.invariant (fun (b : Buffer) a => (b.step a).1) marks rule P
    (fun b h a hrule hb => hstep b h a _ _ hrule (step_effect b a) hb) as b h hb hrule

theorem effect_invariant (P : Buffer → List Mark → Prop)
    (hstep : ∀ b h a next ms, b.Effect a next ms → P b h → P next (h ++ ms)) (as : List Action)
    (b : Buffer) (hb : P b []) : P (b.run as) (b.history as) :=
  run_invariant (fun _ _ => True) P (fun b h a next ms _ he hb => hstep b h a next ms he hb) as b []
    hb (obeys_of_forall_mem _ b as fun _ _ _ => trivial)

end Buffer

end Upkeep.Client
