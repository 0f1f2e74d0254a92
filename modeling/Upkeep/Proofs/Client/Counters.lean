import Mathlib.Data.List.Induction
import Upkeep.Proofs.Client.Closer
import Upkeep.Proofs.Client.Conservation

/-!
This module contains the proof that the counters of a buffer are right: each run of a constructor is
counted when it begins, each closer is counted once when it ends, as what it ended with, and a
record that is put into the buffer either stays there or is taken out again.
-/

namespace Upkeep.Client

open Config

def Mark.isAttempt : Mark → Bool
  | .attempted _ => true
  | _ => false

/--
The client that the closer of a call has and has not yet given back.
-/
def Call.closing? : Call → Option Connection
  | .closing _ _ previous => some previous.client
  | _ => none

def Teardown.closing? (t : Teardown) : Option Connection :=
  if t.phase = .closing then some t.previous.client else none

theorem Teardown.closing?_cancel (t : Teardown) : t.cancel.closing? = t.closing? := by
  cases t with
  | mk name previous since phase => cases phase <;> rfl

theorem Tallies.updates_ended (t : Tallies) (o : CloseOutcome) :
    (t.ended o).updates = t.updates := by
  cases o <;> rfl

def CloseOutcome.isClosed : CloseOutcome → Bool
  | closed => true
  | _ => false

namespace Buffer

/--
The clients that closers have and have not yet given back.
-/
def closers (b : Buffer) : List Connection :=
  b.calls.flatMap (fun c => c.closing?.toList) ++ b.teardowns.flatMap fun t => t.closing?.toList

/--
The closers that an action brings to their ends.
-/
def endings (b : Buffer) : Action → List Ending
  | .closeNow i o =>
    match b.calls[i]? with
    | some (.closing name _ previous) => [⟨name, name, previous, o⟩]
    | _ => []
  | .closeLater i o =>
    match b.teardowns[i]? with
    | some t =>
      if t.phase = .closing then [⟨"client.teardown." ++ t.name, t.name, t.previous, o⟩] else []
    | none => []
  | _ => []

/--
The closers that a series of actions brings to their ends.
-/
def endingsBy (b : Buffer) (as : List Action) : List Ending :=
  Run.history (fun b a => (b.step a).1) endings b as

/--
The names under which an action puts a record into the buffer.
-/
def insertions (b : Buffer) : Action → List String
  | .proceed i =>
    match b.calls[i]? with
    | some (.built name _ _) => [name]
    | _ => []
  | _ => []

/--
The names under which a series of actions puts records into the buffer.
-/
def insertionsBy (b : Buffer) (as : List Action) : List String :=
  Run.history (fun b a => (b.step a).1) insertions b as

theorem closers_of_set_call {b next : Buffer} {i : Nat} {c c' : Call} {given got : List Connection}
    (hc : b.calls[i]? = some c) (hcalls : next.calls = b.calls.set i c')
    (hteardowns : next.teardowns = b.teardowns) (hgiven : c.closing?.toList = given)
    (hgot : c'.closing?.toList = got) : (given ++ next.closers).Perm (got ++ b.closers) := by
  have hset := perm_flatMap_set (fun c : Call => c.closing?.toList) hc c'
  rw [hgiven, hgot] at hset
  rw [closers, closers, hcalls, hteardowns, ← List.append_assoc, ← List.append_assoc]
  exact hset.append_right _

theorem closers_of_set_teardown {b next : Buffer} {i : Nat} {t t' : Teardown}
    {given got : List Connection} (ht : b.teardowns[i]? = some t) (hcalls : next.calls = b.calls)
    (hteardowns : next.teardowns = b.teardowns.set i t') (hgiven : t.closing?.toList = given)
    (hgot : t'.closing?.toList = got) : (given ++ next.closers).Perm (got ++ b.closers) := by
  have hset := perm_flatMap_set (fun t : Teardown => t.closing?.toList) ht t'
  rw [hgiven, hgot] at hset
  rw [closers, closers, hcalls, hteardowns]
  have hout := List.perm_append_comm_assoc given (b.calls.flatMap fun c => c.closing?.toList)
    ((b.teardowns.set i t').flatMap fun t => t.closing?.toList)
  have hin := List.perm_append_comm_assoc (b.calls.flatMap fun c => c.closing?.toList) got
    (b.teardowns.flatMap fun t => t.closing?.toList)
  exact (hout.trans (hset.append_left _)).trans hin

/--
Each closer that has ended was counted as what it ended with. What closers were given is still with
them, or with those that have ended.
-/
structure Closed (b : Buffer) (es : List Ending) : Prop where
  closed : b.tallies.closed = es.countP (·.outcome.isClosed)
  failed : b.tallies.failed = es.countP fun e => !e.outcome.isClosed
  handed : (es.map (·.previous.client) ++ b.closers).Perm (b.closings.map (·.client))

namespace Closed

variable {b next : Buffer} {es : List Ending} {ms : List Mark}

theorem start (runtime : Runtime) : Closed (Buffer.start runtime) [] := by
  constructor <;> simp [Buffer.start, closers]

/--
Some closers end, and clients are given to others.
-/
theorem move (hb : Closed b es) (ends : List Ending) (got : List Connection)
    (hclosed : next.tallies.closed = b.tallies.closed + ends.countP (·.outcome.isClosed))
    (hfailed : next.tallies.failed = b.tallies.failed + ends.countP fun e => !e.outcome.isClosed)
    (hclosers : (ends.map (·.previous.client) ++ next.closers).Perm (got ++ b.closers))
    (hclosings : next.closings.map (·.client) = b.closings.map (·.client) ++ got) :
    Closed next (es ++ ends) := by
  refine ⟨?_, ?_, ?_⟩
  . rw [hclosed, hb.closed, List.countP_append]
  . rw [hfailed, hb.failed, List.countP_append]
  . rw [hclosings, List.map_append, List.append_assoc]
    have hin := List.perm_append_comm_assoc (es.map (·.previous.client)) got b.closers
    have hout := (hb.handed.append_left got).trans List.perm_append_comm
    exact ((hclosers.append_left _).trans hin).trans hout

theorem still (hb : Closed b es) (hclosed : next.tallies.closed = b.tallies.closed)
    (hfailed : next.tallies.failed = b.tallies.failed) (hclosers : next.closers.Perm b.closers)
    (hclosings : next.closings = b.closings) : Closed next (es ++ []) :=
  hb.move [] [] hclosed hfailed hclosers (by rw [hclosings, List.append_nil])

theorem schedule (hb : Closed b es) (i : Nat) (name : String) (client : Connection)
    (previous : Record Connection) (since : Span) (registered : List Nat)
    (hc : b.calls[i]? = some (.displaced name client previous since)) :
    Closed
      { b with
        calls := b.calls.set i (.done (.client client))
        teardowns := b.teardowns ++
          [⟨name, previous, since, if b.runtime.isRunning then .ready else .cancelled⟩]
        registered := registered } (es ++ []) := by
  -- a new teardown has not called its closer, whatever phase it starts in
  have hnew : Teardown.closing?
      ⟨name, previous, since, if b.runtime.isRunning then .ready else .cancelled⟩ = none := by
    cases hrun : b.runtime.isRunning <;> simp [Teardown.closing?]
  have hset := perm_flatMap_set (fun c : Call => c.closing?.toList) hc (.done (.client client))
  refine hb.still rfl rfl ?_ rfl
  rw [closers, closers, List.flatMap_append, List.flatMap_singleton, hnew, Option.toList_none,
    List.append_nil]
  exact List.Perm.append_right _ hset

theorem keep (hb : Closed b es) {a : Action} (he : b.Effect a next ms)
    (hnow : ∀ i o, a ≠ .closeNow i o) (hlater : ∀ i o, a ≠ .closeLater i o) :
    Closed next (es ++ []) := by
  cases he with
  | begin name options => exact hb.still rfl rfl (by simp [closers, Call.closing?]) rfl
  | resolve _ _ _ hc | serve _ _ _ _ hc | refuse _ _ _ hc | reuse _ _ _ _ _ hc
  | attempt _ _ _ _ _ hc | build _ _ _ _ hc | fail _ _ _ _ _ _ hc | place _ _ _ _ hc
  | displace _ _ _ _ _ hc =>
    exact hb.move [] [] rfl rfl (closers_of_set_call hc rfl rfl rfl rfl) (by simp)
  | closeAtOnce i name client previous since hc =>
    exact hb.move [] [previous.client] rfl rfl (closers_of_set_call hc rfl rfl rfl rfl) (by simp)
  | schedule i name client previous since hc => exact hb.schedule i name client previous since _ hc
  | sleep i t ht hp =>
    have hidle : t.closing? = none := by simp [Teardown.closing?, hp]
    exact hb.move [] [] rfl rfl (closers_of_set_teardown ht rfl rfl (by simp [hidle]) rfl) (by simp)
  | wake i t ht hp =>
    have hidle : t.closing? = none := by
      rcases hp with ⟨hp, _⟩ | ⟨due, hp, _⟩ <;> simp [Teardown.closing?, hp]
    exact hb.move [] [t.previous.client] rfl rfl
      (closers_of_set_teardown ht rfl rfl (by simp [hidle]) rfl) (by simp)
  | endCloseNow i name client previous o => exact absurd rfl (hnow i o)
  | endCloseLater i t o => exact absurd rfl (hlater i o)
  | shutdown =>
    refine hb.still rfl rfl ?_ rfl
    simp [closers, shutdown, List.flatMap_map, Teardown.closing?_cancel]
  | _ => exact hb.still rfl rfl (List.Perm.refl _) rfl

theorem finish (hb : Closed b es) (e : Ending) (htallies : next.tallies = b.tallies.ended e.outcome)
    (hclosers : ([e].map (·.previous.client) ++ next.closers).Perm ([] ++ b.closers))
    (hclosings : next.closings = b.closings) : Closed next (es ++ [e]) := by
  refine hb.move [e] [] ?_ ?_ hclosers (by rw [hclosings, List.append_nil])
  . rw [htallies]
    cases ho : e.outcome <;> simp [Tallies.ended, CloseOutcome.isClosed, ho]
  . rw [htallies]
    cases ho : e.outcome <;> simp [Tallies.ended, CloseOutcome.isClosed, ho]

theorem closeNow (hb : Closed b es) (i : Nat) (o : CloseOutcome) :
    Closed (b.step (.closeNow i o)).1 (es ++ b.endings (.closeNow i o)) := by
  by_cases h : ∃ name client previous, b.calls[i]? = some (.closing name client previous)
  . obtain ⟨name, client, previous, hc⟩ := h
    have hends : b.endings (.closeNow i o) = [⟨name, name, previous, o⟩] := by simp [endings, hc]
    have hstep : (b.step (.closeNow i o)).1 =
        { b.setCall i (.done (.client client)) with tallies := b.tallies.ended o } := by
      simp [step, Buffer.closeNow, hc, closed_fst, setCall]
    rw [hends, hstep]
    exact hb.finish _ rfl (closers_of_set_call hc rfl rfl rfl rfl) rfl
  . have hends : b.endings (.closeNow i o) = [] := by
      simp only [endings]
      split
      . next hc => exact absurd ⟨_, _, _, hc⟩ h
      . rfl
    have hstep : (b.step (.closeNow i o)).1 = b := by
      simp only [step, Buffer.closeNow]
      split
      . next hc => exact absurd ⟨_, _, _, hc⟩ h
      . rfl
    rw [hends, hstep, List.append_nil]
    exact hb

theorem closeLater (hb : Closed b es) (i : Nat) (o : CloseOutcome) :
    Closed (b.step (.closeLater i o)).1 (es ++ b.endings (.closeLater i o)) := by
  cases ht : b.teardowns[i]? with
  | none => simpa [Buffer.step, Buffer.closeLater, endings, ht] using hb
  | some t =>
    by_cases hp : t.phase = .closing
    . have hends : b.endings (.closeLater i o) =
          [⟨"client.teardown." ++ t.name, t.name, t.previous, o⟩] := by simp [endings, ht, hp]
      have hstep : (b.step (.closeLater i o)).1 =
          { b.setPhase i .finished with tallies := b.tallies.ended o } := by
        simp [Buffer.step, Buffer.closeLater, ht, hp, closed_fst, setPhase]
      rw [hends, hstep, b.setPhase_eq_set i .finished t ht]
      exact hb.finish _ rfl
        (closers_of_set_teardown ht rfl rfl (by simp [Teardown.closing?, hp]) rfl) rfl
    . simpa [Buffer.step, Buffer.closeLater, endings, ht, hp] using hb

theorem step (hb : Closed b es) (a : Action) : Closed (b.step a).1 (es ++ b.endings a) := by
  cases a with
  | closeNow i o => exact hb.closeNow i o
  | closeLater i o => exact hb.closeLater i o
  | _ => exact hb.keep (b.step_effect _) (by simp) (by simp)

theorem of_run (runtime : Runtime) (as : List Action) :
    Closed ((Buffer.start runtime).run as) ((Buffer.start runtime).endingsBy as) :=
  Run.invariant_of_step (fun (b : Buffer) a => (b.step a).1) endings Closed
    (fun _ _ a hb => hb.step a) as (Buffer.start runtime) [] (.start runtime)

end Closed

theorem updates_step {b next : Buffer} {a : Action} {ms : List Mark} (he : b.Effect a next ms) :
    next.tallies.updates = b.tallies.updates + ms.countP Mark.isAttempt := by
  cases he with
  | endCloseNow i name client previous o | endCloseLater i t o =>
    exact b.tallies.updates_ended o
  | drain | redrain =>
    split <;> rfl
  | _ => rfl

theorem updates_of_run (runtime : Runtime) (as : List Action) :
    ((Buffer.start runtime).run as).tallies.updates =
      ((Buffer.start runtime).history as).countP Mark.isAttempt := by
  refine effect_invariant (fun b h => b.tallies.updates = h.countP Mark.isAttempt) ?_ as _ rfl
  intro b h a next ms he hb
  rw [updates_step he, hb, List.countP_append]

theorem size_insert_record (b : Buffer) (name : String) (r : Record Connection) :
    (b.records.insert name r).size = if (b.record? name).isSome then b.size else b.size + 1 := by
  rw [Dict.size_insert]
  simp only [Dict.mem_keys_iff]
  rfl

/--
A record that is put into the buffer adds a name to it or takes a record out.
-/
def Balances (b next : Buffer) (names : List String) (ms : List Mark) : Prop :=
  b.size + names.length = next.size + (displacedClients ms).length

theorem balances_of_built (b : Buffer) (i : Nat) (name : String) (target : Target)
    (client : Connection) (hc : b.calls[i]? = some (.built name target client)) :
    Balances b (b.step (.proceed i)).1 (b.insertions (.proceed i)) (b.marks (.proceed i)) := by
  have hone : b.insertions (.proceed i) = [name] := by simp [insertions, hc]
  have hstep : (b.step (.proceed i)).1 = (b.swap i name target client).1 := by
    simp [step, proceed, hc]
  have hsize := b.size_insert_record name (Record.make client target.address target.timeout)
  have hmarks : b.marks (.proceed i) = b.callMarks (b.step (.proceed i)).1 i := rfl
  rw [hone, hmarks, hstep]
  cases hr : b.record? name with
  | none =>
    rw [hr] at hsize
    simp only [swap, hr]
    rw [callMarks_of_set b _ i _ _ hc rfl]
    exact hsize.symm
  | some previous =>
    rw [hr] at hsize
    simp only [swap, hr]
    rw [callMarks_of_set b _ i _ _ hc rfl]
    exact (congrArg (· + 1) hsize).symm

theorem balances_of_not_built {b next : Buffer} {a : Action} {ms : List Mark}
    (he : b.Effect a next ms)
    (ha : ∀ i name target client, a = .proceed i →
      b.calls[i]? ≠ some (.built name target client)) : Balances b next [] ms := by
  cases he with
  | place i name target client hc | displace i name target client previous hc =>
    exact absurd hc (ha i name target client rfl)
  | drain | redrain =>
    split <;> rfl
  | _ => rfl

theorem balances_step (b : Buffer) (a : Action) :
    Balances b (b.step a).1 (b.insertions a) (b.marks a) := by
  by_cases h : ∃ i name target client,
      a = .proceed i ∧ b.calls[i]? = some (.built name target client)
  . obtain ⟨i, name, target, client, rfl, hc⟩ := h
    exact b.balances_of_built i name target client hc
  . have hnone : b.insertions a = [] := by
      unfold insertions
      split
      . split
        . next hc => exact absurd ⟨_, _, _, _, rfl, hc⟩ h
        . rfl
      . rfl
    rw [hnone]
    refine balances_of_not_built (b.step_effect a) ?_
    intro i name target client ha hc
    exact h ⟨i, name, target, client, ha, hc⟩

theorem balances_of_run (b : Buffer) (as : List Action) :
    Balances b (b.run as) (b.insertionsBy as) (b.history as) := by
  induction as using List.reverseRecOn with
  | nil => rfl
  | append_singleton as a ih =>
    have hstep := (b.run as).balances_step a
    have hnames : b.insertionsBy (as ++ [a]) = b.insertionsBy as ++ (b.run as).insertions a := by
      rw [insertionsBy, Run.history_append]
      exact congrArg _ (List.append_nil _)
    have hmarks : b.history (as ++ [a]) = b.history as ++ (b.run as).marks a := by
      rw [history_append]
      exact congrArg _ (List.append_nil _)
    unfold Balances at *
    rw [run_concat, hnames, hmarks, displacedClients_append, List.length_append,
      List.length_append]
    omega

/--
However calls overlap and whatever comes of their constructors and closers: the counter of updates
is the number of times that a constructor was run. Each record that was put into the buffer is still
there or was taken out. Each closer that has ended has raised one counter, once, and the counters of
closed and failed clients are the numbers of those that ended well and badly. What was handed to
closers is with those that have ended and those that have not.
-/
theorem counters_account_for_builds_and_closers (runtime : Runtime) (as : List Action) :
    let b := (Buffer.start runtime).run as
    let h := (Buffer.start runtime).history as
    let es := (Buffer.start runtime).endingsBy as
    b.tallies.updates = h.countP Mark.isAttempt ∧
    ((Buffer.start runtime).insertionsBy as).length = b.size + (displacedClients h).length ∧
    es.map Ending.counted = es.map (fun e => [e.outcome.counter]) ∧
    b.tallies.closed = es.countP (·.outcome.isClosed) ∧
    b.tallies.failed = es.countP (fun e => !e.outcome.isClosed) ∧
    b.tallies.closed + b.tallies.failed = es.length ∧
    (es.map (·.previous.client) ++ b.closers).Perm (b.closings.map (·.client)) := by
  intro b h es
  have hb : Closed b es := Closed.of_run runtime as
  have hbalance : Balances (Buffer.start runtime) b _ h := balances_of_run _ as
  refine ⟨updates_of_run runtime as, ?_, ?_, hb.closed, hb.failed, ?_, hb.handed⟩
  . have hstart : (Buffer.start runtime).size = 0 := rfl
    unfold Balances at hbalance
    omega
  . exact congrArg (es.map ·) (funext Ending.counted_eq)
  . rw [hb.closed, hb.failed,
      List.length_eq_countP_add_countP fun e : Ending => e.outcome.isClosed]
    simp

end Buffer

end Upkeep.Client
