import Upkeep.Proofs.Client.Progress

/-!
This module contains names that are settled: nobody edits the table, the record of the name has the
target that is in the table, and no call for the name is about to change that. Later calls for the
name all get the client of the record.
-/

namespace Upkeep.Client

open Config

def Action.proceeds (i : Nat) : Action → Bool
  | .proceed j => j = i
  | _ => false

namespace Call

/--
The name that a call is on its way for.
-/
def name? : Call → Option String
  | .begun name _ | .resolved name .. | .constructing name .. | .built name .. | .displaced name ..
  | .closing name .. => some name
  | .done _ => none

theorem name?_of_isOver {c : Call} (hc : c.isOver = true) : c.name? = none := by
  cases c with
  | done => rfl
  | _ => simp [isOver] at hc

theorem Next.name? {c c' : Call} (hn : c.Next c') {name : String} (hname : c'.name? = some name) :
    c.name? = some name := by
  cases hn with
  | resolve | attempt | build | displace | closeAtOnce => exact hname
  | reuse | refuse | fail | place | schedule | endClose => simp [Call.name?] at hname

/--
A call for a name the record of which is up to date, after it has gone on a number of times.
-/
def settled (name options : String) (target : Target) (client : Connection) : Nat → Call
  | 0 => .begun name options
  | 1 => .resolved name options (some target)
  | _ => .done (.client client)

/--
Whether a call has yet to decide between the client that is there and the constructor.
-/
def isEarly : Call → Bool
  | .begun .. | .resolved .. => true
  | _ => false

/--
Whether a call has found the target, if it has looked for the name and has yet to put a client into
the buffer.
-/
def Wants (name : String) (target : Target) : Call → Prop
  | .resolved n _ wanted => n = name → wanted = some target
  | .constructing n wanted _ | .built n wanted _ => n = name → wanted = target
  | _ => True

theorem wants_of_isOver {c : Call} (hc : c.isOver = true) (name : String) (target : Target) :
    c.Wants name target := by
  cases c with
  | done => trivial
  | _ => simp [isOver] at hc

end Call

namespace Buffer

variable {b next : Buffer} {h ms : List Mark} {a : Action} {name : String} {target : Target}

/--
The table has the target of a name, and so do the calls for the name.
-/
structure Wanted (name : String) (target : Target) (b : Buffer) : Prop where
  table : b.table.get? name = some target
  calls : ∀ c ∈ b.calls, c.Wants name target

namespace Wanted

theorem of_over (hget : b.table.get? name = some target) (hover : ∀ c ∈ b.calls, c.isOver = true) :
    Wanted name target b :=
  ⟨hget, fun c hc => Call.wants_of_isOver (hover c hc) name target⟩

theorem of_set (hb : Wanted name target b) {i : Nat} {c' : Call}
    (hcalls : next.calls = b.calls.set i c') (htable : next.table = b.table)
    (hc' : c'.Wants name target) : Wanted name target next := by
  refine ⟨htable ▸ hb.table, ?_⟩
  intro c hc
  rw [hcalls] at hc
  rcases List.mem_or_eq_of_mem_set hc with hc | rfl
  . exact hb.calls c hc
  . exact hc'

theorem get (hb : Wanted name target b) {i : Nat} {c : Call} (hc : b.calls[i]? = some c) :
    c.Wants name target :=
  hb.calls c (List.mem_of_getElem? hc)

theorem step (hb : Wanted name target b) (hconfigured : target.isConfigured = true)
    (ha : ∀ t, a ≠ .edit t) (he : b.Effect a next ms) : Wanted name target next := by
  cases he with
  | edit t => exact absurd rfl (ha t)
  | begin n options =>
    refine ⟨hb.table, ?_⟩
    intro c hc
    rcases List.mem_append.1 hc with hc | hc
    . exact hb.calls c hc
    . rw [List.mem_singleton.1 hc]
      trivial
  | resolve i n options hc =>
    refine hb.of_set rfl rfl ?_
    rintro rfl
    rw [hb.table, Option.filter_some, if_pos hconfigured]
  | attempt i n options wanted client hc =>
    exact hb.of_set rfl rfl fun hn => Option.some.inj (hb.get hc hn)
  | build i n wanted client hc => exact hb.of_set rfl rfl fun hn => hb.get hc hn
  | serve | refuse | reuse | fail | place | displace | closeAtOnce | schedule | endCloseNow =>
    exact hb.of_set rfl rfl trivial
  | _ => exact ⟨hb.table, hb.calls⟩

theorem currentTarget? (hb : Wanted name target b) (he : b.Effect a next ms)
    (hcurrent : b.currentTarget? name = some target.address) :
    next.currentTarget? name = some target.address := by
  rcases he.record?_eq name with hsame | ⟨i, wanted, client, _, hc, hr⟩
  . rw [Buffer.currentTarget?, hsame]
    exact hcurrent
  . rw [Buffer.currentTarget?, hr, hb.get hc rfl]
    rfl

end Wanted

/--
The record of a name is up to date and has a certain client.
-/
def Keeps (name : String) (target : Target) (client : Connection) (b : Buffer) : Prop :=
  ∃ r, b.record? name = some r ∧ r.target = target.address ∧ r.client = client

theorem keeps_of_insert {client : Connection}
    (hrecords : next.records =
      b.records.insert name (Record.make client target.address target.timeout)) :
    Keeps name target client next :=
  ⟨Record.make client target.address target.timeout,
    by rw [record?, hrecords, Dict.get?_insert, if_pos rfl], rfl, rfl⟩

theorem Keeps.currentTarget? {client : Connection} (hb : Keeps name target client b) :
    b.currentTarget? name = some target.address := by
  obtain ⟨r, hr, ht, _⟩ := hb
  rw [Buffer.currentTarget?, hr, Option.map_some, ht]

theorem Wanted.of_run (hb : Wanted name target b) (hconfigured : target.isConfigured = true)
    (as : List Action) (hstable : ∀ t, .edit t ∉ as) : Wanted name target (b.run as) :=
  stable_invariant (fun b _ => Wanted name target b)
    (fun _ _ _ _ _ ha he hb => hb.step hconfigured ha he) as hstable b hb

theorem Effect.other_call {client : Connection} {options : String} (he : b.Effect a next ms)
    {j n : Nat} (ha : a ≠ .proceed j)
    (hc : b.calls[j]? = some (.settled name options target client n)) :
    next.calls[j]? = some (.settled name options target client n) := by
  have hset : ∀ {i : Nat} {d d' : Call}, b.calls[i]? = some d → i ≠ j →
      (b.calls.set i d')[j]? = some (.settled name options target client n) := by
    intro i d d' hd hij
    rw [getElem?_set_of_getElem? hd, if_neg fun h => hij h.symm, hc]
  have hother : ∀ {i : Nat} {d : Call}, b.calls[i]? = some d → d.isEarly = false →
      d.isOver = false → i ≠ j := by
    rintro i d hd hearly hover rfl
    rw [hc, Option.some.injEq] at hd
    match n with
    | 0 | 1 => simp [← hd, Call.settled, Call.isEarly] at hearly
    | n + 2 => simp [← hd, Call.settled, Call.isOver] at hover
  cases he with
  | begin n options =>
    have hlt := (List.getElem?_eq_some_iff.1 hc).1
    exact (List.getElem?_append_left hlt).trans hc
  | build i _ _ _ hd | fail i _ _ _ _ _ hd | endCloseNow i _ _ _ _ hd =>
    exact hset hd (hother hd rfl rfl)
  | resolve i _ _ hd | serve i _ _ _ hd | refuse i _ _ hd | reuse i _ _ _ _ hd
  | attempt i _ _ _ _ hd | place i _ _ _ hd | displace i _ _ _ _ hd | closeAtOnce i _ _ _ _ hd
  | schedule i _ _ _ _ hd => exact hset hd fun hij => ha (hij ▸ rfl)
  | _ => exact hc

/--
The record of a name is up to date, and no call for the name has run the constructor.
-/
structure Settled (name : String) (target : Target) (client : Connection) (b : Buffer) : Prop where
  wanted : Wanted name target b
  keeps : Keeps name target client b
  early : ∀ c ∈ b.calls, c.name? = some name → c.isEarly = true

namespace Settled

variable {client : Connection} {options : String}

theorem get (hb : Settled name target client b) {i : Nat} {c : Call} (hc : b.calls[i]? = some c)
    (hname : c.name? = some name) : c.isEarly = true :=
  hb.early c (List.mem_of_getElem? hc) hname

theorem ne_of_not_early (hb : Settled name target client b) {i : Nat} {c : Call} {n : String}
    (hc : b.calls[i]? = some c) (hname : c.name? = some n) (hearly : c.isEarly = false) :
    n ≠ name := by
  rintro rfl
  simp [hb.get hc hname] at hearly

/--
There is no need for the constructor when the record is up to date.
-/
theorem ne_of_attempt (hb : Settled name target client b) {i : Nat} {n options : String}
    {wanted : Target} (hc : b.calls[i]? = some (.resolved n options (some wanted)))
    (hr : ∀ r, b.record? n = some r → r.target ≠ wanted.address) : n ≠ name := by
  rintro rfl
  obtain ⟨r, hrecord, ht, _⟩ := hb.keeps
  have hwanted : wanted = target := Option.some.inj (hb.wanted.get hc rfl)
  exact hr r hrecord (hwanted ▸ ht)

theorem record?_eq (hb : Settled name target client b) (he : b.Effect a next ms) :
    next.record? name = b.record? name := by
  rcases he.record?_eq name with hsame | ⟨i, wanted, c, _, hc, _⟩
  . exact hsame
  . exact absurd rfl (hb.ne_of_not_early hc rfl rfl)

theorem early_step (hb : Settled name target client b) (he : b.Effect a next ms) :
    ∀ c ∈ next.calls, c.name? = some name → c.isEarly = true := by
  have hset : ∀ {i : Nat} {c' : Call}, next.calls = b.calls.set i c' →
      (c'.name? = some name → c'.isEarly = true) →
      ∀ c ∈ next.calls, c.name? = some name → c.isEarly = true := by
    intro i c' hcalls hself c hc
    rw [hcalls] at hc
    rcases List.mem_or_eq_of_mem_set hc with hc | rfl
    . exact hb.early c hc
    . exact hself
  have hother : ∀ {n : String} {c : Call}, n ≠ name → c.name? = some n → c.name? = some name →
      c.isEarly = true :=
    fun hne hn hname => absurd (Option.some.inj (hn.symm.trans hname)) hne
  cases he with
  | begin n options =>
    intro c hc hname
    rcases List.mem_append.1 hc with hc | hc
    . exact hb.early c hc hname
    . rw [List.mem_singleton.1 hc]
      rfl
  | resolve => exact hset rfl fun _ => rfl
  | attempt i n options wanted c hc hr =>
    exact hset rfl (hother (hb.ne_of_attempt hc hr) rfl)
  | build i n wanted c hc | displace i n wanted c previous hc
  | closeAtOnce i n c previous since hc =>
    exact hset rfl (hother (hb.ne_of_not_early hc rfl rfl) rfl)
  | serve | refuse | reuse | fail | place | schedule | endCloseNow =>
    exact hset rfl (by simp [Call.name?])
  | _ => exact hb.early

theorem step (hb : Settled name target client b) (hconfigured : target.isConfigured = true)
    (ha : ∀ t, a ≠ .edit t) (he : b.Effect a next ms) : Settled name target client next := by
  refine ⟨hb.wanted.step hconfigured ha he, ?_, hb.early_step he⟩
  obtain ⟨r, hr, ht, hclient⟩ := hb.keeps
  exact ⟨r, (hb.record?_eq he).trans hr, ht, hclient⟩

theorem proceed_call (hb : Settled name target client b) (hconfigured : target.isConfigured = true)
    {j n : Nat} (hc : b.calls[j]? = some (.settled name options target client n)) :
    (b.step (.proceed j)).1.calls[j]? = some (.settled name options target client (n + 1)) := by
  match n with
  | 0 =>
    simp only [Call.settled] at hc
    simp only [Buffer.step, proceed, hc, resolve, setCall, hb.wanted.table, Option.filter_some,
      if_pos hconfigured, getElem?_set_of_getElem? hc, if_true, Call.settled]
  | 1 =>
    obtain ⟨r, hr, ht, rfl⟩ := hb.keeps
    have hfound : (b.record? name).filter (·.target = target.address) = some r := by
      simp [hr, ht]
    simp only [Call.settled] at hc
    simp only [Buffer.step, proceed, hc, compare, hfound, setCall, getElem?_set_of_getElem? hc,
      if_true, Call.settled]
  | n + 2 =>
    simp only [Call.settled] at hc
    simp only [Buffer.step, proceed, hc, Call.settled]

theorem of_run (hb : Settled name target client b) (hconfigured : target.isConfigured = true)
    (as : List Action) (hstable : ∀ t, .edit t ∉ as) : Settled name target client (b.run as) :=
  stable_invariant (fun b _ => Settled name target client b)
    (fun _ _ _ _ _ ha he hb => hb.step hconfigured ha he) as hstable b hb

/--
A call for the name needs two steps, whatever happens between them.
-/
theorem call_of_run (hb : Settled name target client b) (hconfigured : target.isConfigured = true)
    (as : List Action) (hstable : ∀ t, .edit t ∉ as) {j n : Nat}
    (hc : b.calls[j]? = some (.settled name options target client n)) :
    (b.run as).calls[j]? =
      some (.settled name options target client (n + as.countP (·.proceeds j))) := by
  induction as generalizing b n with
  | nil => exact hc
  | cons a as ih =>
    have hnext := hb.step hconfigured (fun t heq => hstable t (heq ▸ List.mem_cons_self ..))
      (b.step_effect a)
    have hrest : ∀ t, .edit t ∉ as := fun t ht => hstable t (List.mem_cons_of_mem _ ht)
    by_cases ha : a = .proceed j
    . subst ha
      have hrun := ih hnext hrest (hb.proceed_call hconfigured hc)
      rw [List.countP_cons_of_pos (by simp [Action.proceeds]), Nat.add_comm _ 1, ← Nat.add_assoc]
      exact hrun
    . have hrun := ih hnext hrest ((b.step_effect a).other_call ha hc)
      rw [List.countP_cons_of_neg (by cases a <;> simp_all [Action.proceeds])]
      exact hrun

theorem not_attempted_step (hb : Settled name target client b) (he : b.Effect a next ms) {j n : Nat}
    (hc : b.calls[j]? = some (.settled name options target client n)) : .attempted j ∉ ms := by
  cases he with
  | attempt i m o wanted c hd hr =>
    intro hm
    obtain rfl := Mark.attempted.inj (List.mem_singleton.1 hm)
    rw [hd, Option.some.injEq] at hc
    match n with
    | 0 => simp [Call.settled] at hc
    | 1 =>
      simp only [Call.settled, Call.resolved.injEq] at hc
      exact hb.ne_of_attempt hd hr hc.1
    | n + 2 => simp [Call.settled] at hc
  | drain | redrain =>
    intro hm
    simpa using eq_drained_of_mem hm
  | _ => simp

theorem not_attempted_of_run (hb : Settled name target client b)
    (hconfigured : target.isConfigured = true) (as : List Action) (hstable : ∀ t, .edit t ∉ as)
    {j n : Nat} (hc : b.calls[j]? = some (.settled name options target client n)) :
    .attempted j ∉ b.history as := by
  induction as generalizing b n with
  | nil => simp [history, Run.history]
  | cons a as ih =>
    have hnext := hb.step hconfigured (fun t heq => hstable t (heq ▸ List.mem_cons_self ..))
      (b.step_effect a)
    have hcall := hb.call_of_run hconfigured [a]
      (fun t ht => hstable t (List.mem_singleton.1 ht ▸ List.mem_cons_self ..)) hc
    intro hm
    rcases List.mem_append.1 hm with hm | hm
    . exact hb.not_attempted_step (b.step_effect a) hc hm
    . exact ih hnext (fun t ht => hstable t (List.mem_cons_of_mem _ ht)) hcall hm

/--
What is taken out of the buffer is of another name.
-/
theorem displaced_step (hb : Settled name target client b) (hnumbered : Numbered b h)
    (he : b.Effect a next ms) {c : Connection} {t : Span} (hm : .displaced c t ∈ ms) :
    c.name ≠ name := by
  cases he with
  | displace i n wanted d previous hd hr =>
    obtain ⟨rfl, _⟩ := Mark.displaced.inj (List.mem_singleton.1 hm)
    rw [hnumbered.recordName n previous hr]
    exact hb.ne_of_not_early hd rfl rfl
  | drain | redrain => simpa using eq_drained_of_mem hm
  | _ => simp at hm

theorem displaced_of_run (hb : Settled name target client b) (hnumbered : Numbered b h)
    (hconfigured : target.isConfigured = true) (as : List Action) (hstable : ∀ t, .edit t ∉ as)
    {c : Connection} {t : Span} (hm : .displaced c t ∈ b.history as) : c.name ≠ name := by
  have hrun := stable_invariant
    (fun b ms => Settled name target client b ∧ Numbered b (h ++ ms) ∧
      ∀ c t, .displaced c t ∈ ms → c.name ≠ name) ?_ as hstable b
    ⟨hb, by simpa using hnumbered, by simp⟩
  . exact hrun.2.2 c t hm
  . rintro b ms a next ms' ha he ⟨hb, hnumbered, hold⟩
    refine ⟨hb.step hconfigured ha he, List.append_assoc h ms ms' ▸ hnumbered.step he, ?_⟩
    intro c t hm
    rcases List.mem_append.1 hm with hm | hm
    . exact hold c t hm
    . exact hb.displaced_step hnumbered he hm

/--
What is closed later is of another name.
-/
theorem teardowns_step (hb : Settled name target client b) (he : b.Effect a next ms) :
    (next.teardowns.map (·.name)).count name = (b.teardowns.map (·.name)).count name := by
  have hset : ∀ {i : Nat} {t t' : Teardown}, b.teardowns[i]? = some t → t'.name = t.name →
      ((b.teardowns.set i t').map (·.name)).count name = (b.teardowns.map (·.name)).count name := by
    intro i t t' ht hname
    rw [List.map_set, hname, set_eq_self (by rw [List.getElem?_map, ht, Option.map_some])]
  cases he with
  | schedule i n c previous since hd =>
    have hne : n ≠ name := hb.ne_of_not_early hd rfl rfl
    simp [hne]
  | sleep i t ht | wake i t ht | endCloseLater i t o ht => exact hset ht rfl
  | shutdown =>
    have hname : ∀ t : Teardown, t.cancel.name = t.name := by
      intro t
      unfold Teardown.cancel
      split <;> rfl
    simp [shutdown, Function.comp_def, hname]
  | _ => rfl

theorem teardowns_of_run (hb : Settled name target client b)
    (hconfigured : target.isConfigured = true) (as : List Action) (hstable : ∀ t, .edit t ∉ as) :
    ((b.run as).teardowns.map (·.name)).count name = (b.teardowns.map (·.name)).count name := by
  have hrun := stable_invariant
    (fun b' _ => Settled name target client b' ∧
      (b'.teardowns.map (·.name)).count name = (b.teardowns.map (·.name)).count name) ?_ as hstable
    b ⟨hb, rfl⟩
  . exact hrun.2
  . rintro b' _ a next ms ha he ⟨hb, hcount⟩
    exact ⟨hb.step hconfigured ha he, (hb.teardowns_step he).trans hcount⟩

/--
A call for the name that begins now or later.
-/
theorem later_call (hb : Settled name target client b) (hconfigured : target.isConfigured = true)
    (fs gs : List Action) (hstable : ∀ t, .edit t ∉ fs ++ .begin name options :: gs)
    (hrecounted : Recounted (b.run fs) (h ++ b.history fs)) :
    let j := (b.run fs).calls.length
    (b.run (fs ++ .begin name options :: gs)).calls[j]? =
      some (.settled name options target client (gs.countP (·.proceeds j))) ∧
    .attempted j ∉ b.history (fs ++ .begin name options :: gs) := by
  intro j
  have hmid := hb.of_run hconfigured fs fun t ht => hstable t (List.mem_append_left _ ht)
  have hbegun := hmid.step hconfigured (by simp) ((b.run fs).step_effect (.begin name options))
  have hcall : ((b.run fs).step (.begin name options)).1.calls[j]? =
      some (.settled name options target client 0) := List.getElem?_concat_length
  have hrest : ∀ t, .edit t ∉ gs :=
    fun t ht => hstable t (List.mem_append_right _ (List.mem_cons_of_mem _ ht))
  constructor
  . have hrun := hbegun.call_of_run hconfigured gs hrest hcall
    rw [Nat.zero_add] at hrun
    rw [run_append]
    exact hrun
  . rw [history_append]
    intro hm
    rcases List.mem_append.1 hm with hm | hm
    . -- nothing is said of a call that has not begun
      obtain ⟨c, hc, _⟩ := hrecounted.known _ (List.mem_append_right h hm) j rfl
      exact absurd (List.getElem?_eq_some_iff.1 hc).1 (Nat.lt_irrefl j)
    . exact hbegun.not_attempted_of_run hconfigured gs hrest hcall hm

theorem clientAt_record (hb : Settled name target client b) :
    b.clientAt (.record name) = some client := by
  obtain ⟨r, hr, _, hclient⟩ := hb.keeps
  rw [clientAt, hr, Option.map_some, hclient]

end Settled

end Buffer

end Upkeep.Client
