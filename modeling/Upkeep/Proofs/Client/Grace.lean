import Upkeep.Proofs.Client.Conservation
import Upkeep.Proofs.Client.Story

/-!
This module contains the proof that a replaced client is closed when its grace is over, and not
before. The grace is that of the target for which the client was built, whatever the table has said
since, and no other teardown has a part in it.
-/

namespace Upkeep.Client

open Config

theorem le_trans_span {a b c : Span} (hab : a ≤ b) (hbc : b ≤ c) : a ≤ c :=
  Nat.le_trans hab hbc

theorem le_add_span (a b : Span) : a ≤ a + b := Nat.le_add_right a.nanos b.nanos

theorem add_le_add_span {a b : Span} (h : a ≤ b) (c : Span) : a + c ≤ b + c :=
  Nat.add_le_add_right h c.nanos

/--
A record with a client that was built, and with the grace of the target for which it was.
-/
def Kept (h : List Mark) (r : Record Connection) : Prop :=
  ∃ i target, .built i target r.client ∈ h ∧ r.grace = graceOf target.timeout

/--
A record that was taken out of the buffer at the time `since`, not after `clock`.
-/
structure Left (h : List Mark) (clock : Span) (r : Record Connection) (since : Span) : Prop where
  kept : Kept h r
  marked : .displaced r.client since ∈ h
  past : since ≤ clock

def Call.Dated (h : List Mark) (clock : Span) : Call → Prop
  | .built _ target client => Kept h (Record.make client target.address target.timeout)
  | .displaced _ _ previous since => Left h clock previous since
  | _ => True

/--
A teardown has what was taken out of the buffer, and sleeps at least for the grace of it.
-/
structure Teardown.Dated (h : List Mark) (clock : Span) (t : Teardown) : Prop where
  left : Left h clock t.previous t.since
  due : ∀ due, t.phase = .asleep due → t.since + t.previous.grace ≤ due
  alive : t.phase ≠ .cancelled

def Closing.Dated (h : List Mark) (clock : Span) (x : Closing) : Prop :=
  ∃ r since, Left h clock r since ∧ r.client = x.client ∧ since + r.grace ≤ x.time

theorem Kept.mono {h : List Mark} {r : Record Connection} (hr : Kept h r) (ms : List Mark) :
    Kept (h ++ ms) r := by
  obtain ⟨i, target, hm, hgrace⟩ := hr
  exact ⟨i, target, List.mem_append_left _ hm, hgrace⟩

theorem Left.mono {h : List Mark} {clock clock' since : Span} {r : Record Connection}
    (hr : Left h clock r since) (ms : List Mark) (hclock : clock ≤ clock') :
    Left (h ++ ms) clock' r since :=
  ⟨hr.kept.mono ms, List.mem_append_left _ hr.marked, le_trans_span hr.past hclock⟩

theorem Call.Dated.mono {h : List Mark} {clock clock' : Span} {c : Call} (hc : c.Dated h clock)
    (ms : List Mark) (hclock : clock ≤ clock') : c.Dated (h ++ ms) clock' := by
  cases c with
  | built => exact Kept.mono hc ms
  | displaced => exact Left.mono hc ms hclock
  | begun | resolved | constructing | closing | done => trivial

theorem Teardown.Dated.mono {h : List Mark} {clock clock' : Span} {t : Teardown}
    (ht : t.Dated h clock) (ms : List Mark) (hclock : clock ≤ clock') :
    t.Dated (h ++ ms) clock' :=
  ⟨ht.left.mono ms hclock, ht.due, ht.alive⟩

theorem Closing.Dated.mono {h : List Mark} {clock clock' : Span} {x : Closing}
    (hx : x.Dated h clock) (ms : List Mark) (hclock : clock ≤ clock') :
    x.Dated (h ++ ms) clock' := by
  obtain ⟨r, since, hr, hclient, htime⟩ := hx
  exact ⟨r, since, hr.mono ms hclock, hclient, htime⟩

def Call.Prompt (client : Connection) (clock : Span) : Call → Prop
  | .displaced _ _ previous since => previous.client = client → since = clock
  | _ => True

/--
A teardown that has not started its closer has lost no time, if it is that of a client.
-/
def Teardown.Prompt (client : Connection) (clock : Span) (t : Teardown) : Prop :=
  match t.phase with
  | .ready => t.previous.client = client → t.since = clock
  | .asleep due => t.previous.client = client → due = t.since + t.previous.grace
  | _ => True

def Action.isPass : Action → Bool
  | .pass _ => true
  | _ => false

def Teardown.isDue (clock : Span) (t : Teardown) : Bool :=
  match t.phase with
  | .ready => true
  | .asleep due => due ≤ clock
  | _ => false

namespace Buffer

/--
Whether there is a runtime after an action.
-/
def Available (b : Buffer) (a : Action) : Prop := (b.step a).1.runtime.isRunning = true

instance (b : Buffer) (a : Action) : Decidable (b.Available a) :=
  inferInstanceAs (Decidable (_ = _))

/--
Whether no teardown of a client waits for its first turn, neither with the call that took the client
out of the buffer nor on its own.
-/
def IsStarted (b : Buffer) (client : Connection) : Prop :=
  (∀ c ∈ b.calls, c.displaced? ≠ some client) ∧
    ∀ t ∈ b.teardowns, t.previous.client = client → t.phase ≠ .ready

instance (b : Buffer) (client : Connection) : Decidable (b.IsStarted client) :=
  inferInstanceAs (Decidable (_ ∧ _))

/--
Whether no teardown has to take a turn.
-/
def IsSettled (b : Buffer) : Prop :=
  (∀ c ∈ b.calls, c.displaced? = none) ∧ ∀ t ∈ b.teardowns, t.isDue b.clock = false

instance (b : Buffer) : Decidable b.IsSettled := inferInstanceAs (Decidable (_ ∧ _))

/--
Whether an action lets no time pass while the teardown of a client waits for its first turn.
-/
def Virtual (client : Connection) (b : Buffer) (a : Action) : Prop :=
  a.isPass = true → b.IsStarted client

instance (client : Connection) (b : Buffer) (a : Action) : Decidable (Virtual client b a) :=
  inferInstanceAs (Decidable (_ → _))

/--
While there is a runtime, graces come from the builds, and nothing is closed before its grace is
over.
-/
structure Dated (b : Buffer) (h : List Mark) : Prop where
  running : b.runtime.isRunning = true
  records : ∀ name r, b.record? name = some r → Kept h r
  calls : ∀ c ∈ b.calls, c.Dated h b.clock
  teardowns : ∀ t ∈ b.teardowns, t.Dated h b.clock
  closings : ∀ x ∈ b.closings, x.Dated h b.clock

namespace Dated

variable {b next : Buffer} {h ms : List Mark}

theorem start (runtime : Runtime) (hruntime : runtime.isRunning = true) :
    Dated (Buffer.start runtime) [] := by
  constructor <;> simp [Buffer.start, record?, hruntime]

theorem calls_of_set (hb : Dated b h) {i : Nat} {c' : Call}
    (hc' : c'.Dated (h ++ ms) b.clock) : ∀ c ∈ b.calls.set i c', c.Dated (h ++ ms) b.clock := by
  intro c hc
  rcases List.mem_or_eq_of_mem_set hc with hc | rfl
  . exact (hb.calls c hc).mono ms (Nat.le_refl _)
  . exact hc'

theorem teardowns_of_set (hb : Dated b h) {i : Nat} {t' : Teardown}
    (ht' : t'.Dated (h ++ ms) b.clock) :
    ∀ t ∈ b.teardowns.set i t', t.Dated (h ++ ms) b.clock := by
  intro t ht
  rcases List.mem_or_eq_of_mem_set ht with ht | rfl
  . exact (hb.teardowns t ht).mono ms (Nat.le_refl _)
  . exact ht'

theorem of_calls (hb : Dated b h) (hrunning : next.runtime.isRunning = true)
    (hrecords : next.records = b.records) (hteardowns : next.teardowns = b.teardowns)
    (hclosings : next.closings = b.closings) (hclock : b.clock ≤ next.clock)
    (hcalls : ∀ c ∈ next.calls, c.Dated (h ++ ms) next.clock) : Dated next (h ++ ms) := by
  refine ⟨hrunning, ?_, hcalls, ?_, ?_⟩
  . intro name r hr
    rw [record?, hrecords] at hr
    exact (hb.records name r hr).mono ms
  . intro t ht
    exact (hb.teardowns t (hteardowns ▸ ht)).mono ms hclock
  . intro x hx
    exact (hb.closings x (hclosings ▸ hx)).mono ms hclock

theorem still (hb : Dated b h) (hrunning : next.runtime.isRunning = true)
    (hrecords : next.records = b.records) (hteardowns : next.teardowns = b.teardowns)
    (hclosings : next.closings = b.closings) (hclock : b.clock ≤ next.clock)
    (hcalls : next.calls = b.calls) : Dated next (h ++ ms) := by
  refine hb.of_calls hrunning hrecords hteardowns hclosings hclock ?_
  intro c hc
  exact (hb.calls c (hcalls ▸ hc)).mono ms hclock

theorem insert (hb : Dated b h) (i : Nat) (name : String) (target : Target) (client : Connection)
    (c' : Call) (hc : b.calls[i]? = some (.built name target client))
    (hc' : c'.Dated (h ++ ms) b.clock) :
    Dated
      { b with
        calls := b.calls.set i c'
        records := b.records.insert name (Record.make client target.address target.timeout) }
      (h ++ ms) := by
  refine ⟨hb.running, ?_, hb.calls_of_set hc', ?_, ?_⟩
  . intro n r hr
    rw [record?, Dict.get?_insert] at hr
    split at hr
    . have hbuilt : (Call.built name target client).Dated h b.clock :=
        hb.calls _ (List.mem_of_getElem? hc)
      rw [← Option.some.inj hr]
      exact Kept.mono hbuilt ms
    . exact (hb.records n r hr).mono ms
  . intro t ht
    exact (hb.teardowns t ht).mono ms (Nat.le_refl _)
  . intro x hx
    exact (hb.closings x hx).mono ms (Nat.le_refl _)

theorem schedule (hb : Dated b h) (i : Nat) (name : String) (client : Connection)
    (previous : Record Connection) (since : Span) (registered : List Nat)
    (hc : b.calls[i]? = some (.displaced name client previous since)) :
    Dated
      { b with
        calls := b.calls.set i (.done (.client client))
        teardowns := b.teardowns ++
          [⟨name, previous, since, if b.runtime.isRunning then .ready else .cancelled⟩]
        registered := registered } (h ++ ms) := by
  refine ⟨hb.running, fun n r hr => (hb.records n r hr).mono ms, ?_, ?_, ?_⟩
  . have hdone : (Call.done (.client client)).Dated (h ++ ms) b.clock := trivial
    exact hb.calls_of_set hdone
  . intro t ht
    rcases List.mem_append.1 ht with ht | ht
    . exact (hb.teardowns t ht).mono ms (Nat.le_refl _)
    . have hleft : Left h b.clock previous since := hb.calls _ (List.mem_of_getElem? hc)
      rw [List.mem_singleton.1 ht, hb.running]
      exact ⟨hleft.mono ms (Nat.le_refl _), by simp, by simp⟩
  . intro x hx
    exact (hb.closings x hx).mono ms (Nat.le_refl _)

theorem set_phase (hb : Dated b h) (i : Nat) (t : Teardown) (p : Phase) (tallies : Tallies)
    (ht : b.teardowns[i]? = some t)
    (hdue : ∀ due, p = .asleep due → t.since + t.previous.grace ≤ due) (hp : p ≠ .cancelled) :
    Dated
      { b with
        teardowns := b.teardowns.set i { t with phase := p }
        tallies := tallies } (h ++ ms) := by
  have hold := hb.teardowns t (List.mem_of_getElem? ht)
  refine ⟨hb.running, fun n r hr => (hb.records n r hr).mono ms, ?_, ?_, ?_⟩
  . intro c hc
    exact (hb.calls c hc).mono ms (Nat.le_refl _)
  . exact hb.teardowns_of_set ⟨hold.left.mono ms (Nat.le_refl _), hdue, hp⟩
  . intro x hx
    exact (hb.closings x hx).mono ms (Nat.le_refl _)

theorem wake (hb : Dated b h) (i : Nat) (t : Teardown) (ht : b.teardowns[i]? = some t)
    (hover : t.since + t.previous.grace ≤ b.clock) :
    Dated
      { b with
        teardowns := b.teardowns.set i { t with phase := .closing }
        closings := b.closings ++ [⟨b.clock, t.previous.client⟩] } (h ++ ms) := by
  have hclosing : Dated { b with teardowns := b.teardowns.set i { t with phase := .closing } }
      (h ++ ms) := hb.set_phase i t .closing b.tallies ht (by simp) (by simp)
  refine ⟨hb.running, hclosing.records, hclosing.calls, hclosing.teardowns, ?_⟩
  intro x hx
  rcases List.mem_append.1 hx with hx | hx
  . exact hclosing.closings x hx
  . rw [List.mem_singleton.1 hx]
    have hold := hb.teardowns t (List.mem_of_getElem? ht)
    exact ⟨t.previous, t.since, hold.left.mono ms (Nat.le_refl _), rfl, hover⟩

theorem over_of_due (hb : Dated b h) {t : Teardown} (ht : t ∈ b.teardowns)
    (hp : t.phase = .ready ∧ t.previous.grace = .zero ∨
      ∃ due, t.phase = .asleep due ∧ due ≤ b.clock) :
    t.since + t.previous.grace ≤ b.clock := by
  have hold := hb.teardowns t ht
  rcases hp with ⟨_, hgrace⟩ | ⟨due, hp, hdue⟩
  . rw [hgrace]
    exact hold.left.past
  . exact le_trans_span (hold.due due hp) hdue

theorem step (hb : Dated b h) {a : Action} (ha : b.Available a) (he : b.Effect a next ms) :
    Dated next (h ++ ms) := by
  have hclock := Nat.le_refl b.clock.nanos
  cases he with
  | begin name options =>
    refine hb.of_calls hb.running rfl rfl rfl hclock ?_
    intro c hc
    rcases List.mem_append.1 hc with hc | hc
    . exact (hb.calls c hc).mono _ hclock
    . rw [List.mem_singleton.1 hc]
      trivial
  | resolve | serve | refuse | reuse | attempt | fail | endCloseNow =>
    exact hb.of_calls hb.running rfl rfl rfl hclock (hb.calls_of_set trivial)
  | build i name target client hc =>
    refine hb.of_calls hb.running rfl rfl rfl hclock (hb.calls_of_set ?_)
    exact ⟨i, target, by simp [Record.make], rfl⟩
  | place i name target client hc => exact hb.insert i name target client _ hc trivial
  | displace i name target client previous hc hr =>
    refine hb.insert i name target client _ hc ?_
    exact ⟨(hb.records name previous hr).mono _, by simp, hclock⟩
  | closeAtOnce i name client previous since hc habsent =>
    have hno := hb.running
    simp [habsent, Runtime.isRunning] at hno
  | schedule i name client previous since hc => exact hb.schedule i name client previous since _ hc
  | sleep i t ht hp hg =>
    refine hb.set_phase i t _ b.tallies ht ?_ (by simp)
    intro due hdue
    rw [← Phase.asleep.inj hdue]
    exact add_le_add_span (hb.teardowns t (List.mem_of_getElem? ht)).left.past t.previous.grace
  | wake i t ht hp => exact hb.wake i t ht (hb.over_of_due (List.mem_of_getElem? ht) hp)
  | endCloseLater i t o ht hp => exact hb.set_phase i t .finished _ ht (by simp) (by simp)
  | shutdown =>
    have hdown : b.runtime.shutdown.isRunning = false := by cases b.runtime <;> rfl
    simp [Available, Buffer.step, shutdown, hdown] at ha
  | enter | leave => exact hb.still ha rfl rfl rfl hclock rfl
  | pass time => exact hb.still hb.running rfl rfl rfl (le_add_span b.clock time) rfl
  | _ => exact hb.still hb.running rfl rfl rfl hclock rfl

end Dated

/--
No client is taken out of the buffer at two times.
-/
def Once (h : List Mark) : Prop :=
  ∀ c t t', .displaced c t ∈ h → .displaced c t' ∈ h → t = t'

theorem once_append_of_ne_displaced {h ms : List Mark} (hh : Once h)
    (hms : ∀ m ∈ ms, m.displaced? = none) : Once (h ++ ms) := by
  have hold : ∀ c t, .displaced c t ∈ h ++ ms → .displaced c t ∈ h := by
    intro c t hm
    rcases List.mem_append.1 hm with hm | hm
    . exact hm
    . simpa [Mark.displaced?] using hms _ hm
  intro c t t' ht ht'
  exact hh c t t' (hold c t ht) (hold c t' ht')

theorem not_displaced_of_record {b : Buffer} {h : List Mark} (hb : Sound b h) {name : String}
    {r : Record Connection} (hr : b.record? name = some r) (t : Span) :
    .displaced r.client t ∉ h := by
  intro hm
  obtain ⟨p, hp, hout⟩ := hb.conserved.outside _ (mem_displacedClients hm)
  have hrecord : b.clientAt (.record name) = some r.client := by simp [clientAt, hr]
  exact hb.not_record_of_outside hp hout hrecord

theorem once_step {b next : Buffer} {h ms : List Mark} {a : Action} (hb : Sound b h)
    (hh : Once h) (he : b.Effect a next ms) : Once (h ++ ms) := by
  cases he with
  | displace i name target client previous hc hr =>
    have hnot := not_displaced_of_record hb hr
    intro c t t' ht ht'
    rcases List.mem_append.1 ht with ht | ht <;> rcases List.mem_append.1 ht' with ht' | ht'
    . exact hh c t t' ht ht'
    . obtain ⟨rfl, rfl⟩ := Mark.displaced.inj (List.mem_singleton.1 ht')
      exact absurd ht (hnot t)
    . obtain ⟨rfl, rfl⟩ := Mark.displaced.inj (List.mem_singleton.1 ht)
      exact absurd ht' (hnot t')
    . rw [(Mark.displaced.inj (List.mem_singleton.1 ht)).2,
        (Mark.displaced.inj (List.mem_singleton.1 ht')).2]
  | drain | redrain =>
    refine once_append_of_ne_displaced hh ?_
    intro m hm
    rw [eq_drained_of_mem hm]
    rfl
  | _ => exact once_append_of_ne_displaced hh (by simp [Mark.displaced?])

theorem target_unique {b : Buffer} {h : List Mark} (hb : Numbered b h) {i j : Nat}
    {target target' : Target} {c : Connection} (hi : .built i target c ∈ h)
    (hj : .built j target' c ∈ h) : target = target' := by
  have hmem : ∀ {k u}, .built k u c ∈ h → (u, c) ∈ builds h :=
    fun hk => List.mem_filterMap.2 ⟨_, hk, rfl⟩
  have hnodup := hb.nodup
  rw [builtClients, List.map_map] at hnodup
  have heq := List.inj_on_of_nodup_map hnodup (hmem hi) (hmem hj) rfl
  exact (Prod.mk.inj heq).1

/--
No time has passed between the time at which a client was taken out of the buffer and that at which
its teardown began to sleep.
-/
structure Prompt (client : Connection) (b : Buffer) : Prop where
  calls : ∀ c ∈ b.calls, c.Prompt client b.clock
  teardowns : ∀ t ∈ b.teardowns, t.Prompt client b.clock

namespace Prompt

variable {client : Connection} {b next : Buffer} {ms : List Mark}

theorem of_calls (hb : Prompt client b) (hteardowns : next.teardowns = b.teardowns)
    (hclock : next.clock = b.clock)
    (hcalls : ∀ c ∈ next.calls, c ∈ b.calls ∨ c.Prompt client b.clock) : Prompt client next := by
  rw [show b.clock = next.clock from hclock.symm] at hcalls
  constructor
  . intro c hc
    rcases hcalls c hc with hold | hnew
    . rw [hclock]
      exact hb.calls c hold
    . exact hnew
  . rw [hteardowns, hclock]
    exact hb.teardowns

theorem mem_or_of_set {i : Nat} {c' : Call} (hc' : c'.Prompt client b.clock) :
    ∀ c ∈ b.calls.set i c', c ∈ b.calls ∨ c.Prompt client b.clock := by
  intro c hc
  rcases List.mem_or_eq_of_mem_set hc with hc | rfl
  . exact Or.inl hc
  . exact Or.inr hc'

theorem of_teardowns_set (hb : Prompt client b) {i : Nat} {t' : Teardown}
    (ht' : t'.Prompt client b.clock) (hcalls : next.calls = b.calls)
    (hclock : next.clock = b.clock) (hteardowns : next.teardowns = b.teardowns.set i t') :
    Prompt client next := by
  constructor
  . rw [hcalls, hclock]
    exact hb.calls
  . intro t ht
    rw [hteardowns] at ht
    rw [hclock]
    rcases List.mem_or_eq_of_mem_set ht with ht | rfl
    . exact hb.teardowns t ht
    . exact ht'

theorem schedule (hb : Prompt client b) (i : Nat) (name : String) (successor : Connection)
    (previous : Record Connection) (since : Span) (registered : List Nat)
    (hc : b.calls[i]? = some (.displaced name successor previous since)) :
    Prompt client
      { b with
        calls := b.calls.set i (.done (.client successor))
        teardowns := b.teardowns ++
          [⟨name, previous, since, if b.runtime.isRunning then .ready else .cancelled⟩]
        registered := registered } := by
  constructor
  . intro c hc
    rcases List.mem_or_eq_of_mem_set hc with hc | rfl
    . exact hb.calls c hc
    . trivial
  . intro t ht
    rcases List.mem_append.1 ht with ht | ht
    . exact hb.teardowns t ht
    . have hsince : previous.client = client → since = b.clock :=
        hb.calls _ (List.mem_of_getElem? hc)
      rw [List.mem_singleton.1 ht]
      cases b.runtime.isRunning with
      | true => exact hsince
      | false => trivial

theorem pass (hb : Prompt client b) (hstarted : b.IsStarted client) (time : Span) :
    Prompt client { b with clock := b.clock + time } := by
  -- nothing is between a swap and a first turn, so that the time that passes is part of a sleep
  constructor
  . intro c hc
    have hnot := hstarted.1 c hc
    cases c with
    | displaced =>
      intro hclient
      exact absurd (congrArg some hclient) hnot
    | begun | resolved | constructing | built | closing | done => trivial
  . intro t ht
    have hready := hstarted.2 t ht
    have hold := hb.teardowns t ht
    unfold Teardown.Prompt at hold ⊢
    cases hp : t.phase with
    | ready =>
      intro hclient
      exact absurd hp (hready hclient)
    | asleep due =>
      rw [hp] at hold
      exact hold
    | closing | finished | cancelled => trivial

theorem shutdown (hb : Prompt client b) : Prompt client b.shutdown := by
  constructor
  . exact hb.calls
  . intro u hu
    obtain ⟨t, ht, rfl⟩ := List.mem_map.1 hu
    have hold := hb.teardowns t ht
    unfold Teardown.cancel
    split
    . trivial
    . exact hold

theorem step (hb : Prompt client b) {a : Action} (hvirtual : Virtual client b a)
    (he : b.Effect a next ms) : Prompt client next := by
  cases he with
  | begin name options =>
    refine hb.of_calls rfl rfl ?_
    intro c hc
    rcases List.mem_append.1 hc with hc | hc
    . exact Or.inl hc
    . rw [List.mem_singleton.1 hc]
      exact Or.inr trivial
  | resolve | serve | refuse | reuse | attempt | build | fail | place | closeAtOnce
  | endCloseNow => exact hb.of_calls rfl rfl (mem_or_of_set trivial)
  | displace => exact hb.of_calls rfl rfl (mem_or_of_set fun _ => rfl)
  | schedule i name successor previous since hc =>
    exact hb.schedule i name successor previous since _ hc
  | sleep i t ht hp =>
    refine hb.of_teardowns_set ?_ rfl rfl rfl
    have hsince := hb.teardowns t (List.mem_of_getElem? ht)
    rw [Teardown.Prompt, hp] at hsince
    intro hclient
    rw [hsince hclient]
  | wake i t =>
    have hclosing : Teardown.Prompt client b.clock { t with phase := .closing } := trivial
    exact hb.of_teardowns_set hclosing rfl rfl rfl
  | endCloseLater i t =>
    have hfinished : Teardown.Prompt client b.clock { t with phase := .finished } := trivial
    exact hb.of_teardowns_set hfinished rfl rfl rfl
  | pass time => exact hb.pass (hvirtual rfl) time
  | shutdown => exact hb.shutdown
  | _ => exact hb.of_calls rfl rfl fun c hc => Or.inl hc

theorem of_run (runtime : Runtime) (as : List Action)
    (has : Obeys (Virtual client) (Buffer.start runtime) as) :
    Prompt client ((Buffer.start runtime).run as) := by
  have hstart : Prompt client (Buffer.start runtime) := by
    constructor <;> simp [Buffer.start]
  exact run_invariant (Virtual client) (fun b _ => Prompt client b)
    (fun _ _ _ _ _ hvirtual he hb => hb.step hvirtual he) as _ [] hstart has

end Prompt

/--
What holds of a buffer that always had a runtime.
-/
structure Timely (b : Buffer) (h : List Mark) : Prop where
  sound : Sound b h
  recounted : Recounted b h
  dated : Dated b h
  once : Once h

namespace Timely

variable {b : Buffer} {h : List Mark}

theorem of_run (runtime : Runtime) (as : List Action) (hruntime : runtime.isRunning = true)
    (has : Obeys Available (Buffer.start runtime) as) :
    Timely ((Buffer.start runtime).run as) ((Buffer.start runtime).history as) := by
  have hstart : Timely (Buffer.start runtime) [] :=
    ⟨.start runtime, .start runtime, .start runtime hruntime, by simp [Once]⟩
  have hrun := run_invariant Available Timely
    (fun _ _ _ _ _ ha he hb =>
      ⟨hb.sound.step he, hb.recounted.step he, hb.dated.step ha he, once_step hb.sound hb.once he⟩)
    as _ _ hstart has
  simpa using hrun

theorem since_and_grace (hb : Timely b h) {r : Record Connection} {clock since t : Span} {i : Nat}
    {target : Target} {c : Connection} (hr : Left h clock r since) (hc : r.client = c)
    (hbuilt : .built i target c ∈ h) (ht : .displaced c t ∈ h) :
    since = t ∧ r.grace = graceOf target.timeout := by
  -- clients are distinct, so that the record has the build and the mark of this one
  subst hc
  obtain ⟨j, target', hbuilt', hgrace⟩ := hr.kept
  refine ⟨hb.once _ _ _ hr.marked ht, ?_⟩
  rw [hgrace, target_unique hb.sound.numbered hbuilt' hbuilt]

theorem not_before (hb : Timely b h) {t : Span} {i : Nat} {target : Target} {c : Connection}
    (hbuilt : .built i target c ∈ h) (ht : .displaced c t ∈ h) :
    ∀ x ∈ b.closings, x.client = c → t + graceOf target.timeout ≤ x.time := by
  intro x hx hc
  obtain ⟨r, since, hleft, hclient, htime⟩ := hb.dated.closings x hx
  obtain ⟨rfl, hgrace⟩ := hb.since_and_grace hleft (hclient.trans hc) hbuilt ht
  rw [← hgrace]
  exact htime

theorem closed_of_settled (hb : Timely b h) {c : Connection} (hprompt : Prompt c b)
    (hsettled : b.IsSettled) {t : Span} {i : Nat} {target : Target} (hbuilt : .built i target c ∈ h)
    (ht : .displaced c t ∈ h) (hover : t + graceOf target.timeout ≤ b.clock) :
    ∃ x ∈ b.closings, x.client = c := by
  -- a client that was taken out is outside, where nothing but a sleep is left that may hold it
  obtain ⟨p, hp, hout⟩ := hb.sound.conserved.outside c (mem_displacedClients ht)
  cases p with
  | builder | record => simp [Place.isOutside] at hout
  | displacer j =>
    obtain ⟨call, hcall, hclient⟩ := Option.bind_eq_some_iff.1 hp
    simp [hsettled.1 call (List.mem_of_getElem? hcall)] at hclient
  | teardown j =>
    obtain ⟨u, hu, hclient⟩ := Option.bind_eq_some_iff.1 hp
    have hmem := List.mem_of_getElem? hu
    have hidle := hsettled.2 u hmem
    have hon := hprompt.teardowns u hmem
    have hdated := hb.dated.teardowns u hmem
    cases hphase : u.phase with
    | ready => simp [Teardown.isDue, hphase] at hidle
    | asleep due =>
      simp only [Teardown.unclosed?, hphase, Option.some.injEq] at hclient
      obtain ⟨rfl, hgrace⟩ := hb.since_and_grace hdated.left hclient hbuilt ht
      rw [Teardown.Prompt, hphase, hgrace] at hon
      simp [Teardown.isDue, hphase, hon hclient, hover] at hidle
    | closing | finished => simp [Teardown.unclosed?, hphase] at hclient
    | cancelled => exact absurd hphase hdated.alive
  | closer n =>
    obtain ⟨x, hx, hclient⟩ := Option.map_eq_some_iff.1 hp
    exact ⟨x, List.mem_of_getElem? hx, hclient⟩

end Timely

/--
While there is a runtime, a client that is replaced at the time `t` is not handed to a closer before
its grace is over. It is so as soon as all is settled after that, if no time has passed before the
first turn of its teardown, however long the others waited for theirs. The grace is the timeout of
the target that the call has found that built the client, but at most sixty seconds.
-/
theorem closed_when_grace_is_over (runtime : Runtime) (as : List Action)
    (hruntime : runtime.isRunning = true) (has : Obeys Available (Buffer.start runtime) as) :
    let b := (Buffer.start runtime).run as
    let h := (Buffer.start runtime).history as
    ∀ c t, .displaced c t ∈ h →
      (∃ i name target, .resolved i name (some target) ∈ h ∧ .built i target c ∈ h) ∧
      ∀ i name target wanted, .resolved i name (some target) ∈ h → .built i wanted c ∈ h →
        (∀ x ∈ b.closings, x.client = c → t + min target.timeout (Span.ofSeconds 60) ≤ x.time) ∧
        (Obeys (Virtual c) (Buffer.start runtime) as → b.IsSettled →
          t + min target.timeout (Span.ofSeconds 60) ≤ b.clock → ∃ x ∈ b.closings, x.client = c) := by
  intro b h c t ht
  have hb : Timely b h := Timely.of_run runtime as hruntime has
  constructor
  . obtain ⟨p, hp, _⟩ := hb.sound.conserved.outside c (mem_displacedClients ht)
    obtain ⟨i, target, hbuilt⟩ := (mem_builtClients h c).1 (hb.sound.conserved.sound p c hp)
    obtain ⟨⟨name, hm⟩, _⟩ := hb.recounted.seen_of_built hbuilt
    exact ⟨i, name, target, hm, hbuilt⟩
  . intro i name target wanted hm hbuilt
    have hsame := ((hb.recounted.seen_of_built hbuilt).2 name (some target) hm).1
    rw [← Option.some.inj hsame] at hbuilt
    refine ⟨hb.not_before hbuilt ht, ?_⟩
    intro hvirtual hsettled hover
    exact hb.closed_of_settled (.of_run runtime as hvirtual) hsettled hbuilt ht hover

/--
A client for a target with a timeout of two minutes is replaced at once, and its successor is
replaced after ten seconds. The first has a grace of sixty seconds, the second one of none.
-/
def replacements : List Action :=
  let table address seconds := TargetTable.empty.upsert "db" ⟨address, .ofSeconds seconds⟩
  [.edit (table "a" 120), .begin "db" "", .proceed 0, .proceed 0, .construct 0 .built, .proceed 0,
   .edit (table "b" 0), .begin "db" "", .proceed 1, .proceed 1, .construct 1 .built, .proceed 1,
   .proceed 1, .turn 0, .pass (.ofSeconds 10),
   .edit (table "c" 30), .begin "db" "", .proceed 2, .proceed 2, .construct 2 .built, .proceed 2,
   .proceed 2, .turn 1, .pass (.ofSeconds 50), .turn 0]

theorem replacements_closed_when_grace_is_over :
    let b := (Buffer.start .around).run replacements
    Obeys Available (Buffer.start .around) replacements ∧ b.IsSettled ∧
    Obeys (Virtual ⟨0, "db", "a", ""⟩) (Buffer.start .around) replacements ∧
    Obeys (Virtual ⟨1, "db", "b", ""⟩) (Buffer.start .around) replacements ∧
    (∀ x ∈ b.closings, x.client = ⟨0, "db", "a", ""⟩ →
      Span.zero + min (.ofSeconds 120) (.ofSeconds 60) ≤ x.time) ∧
    (∃ x ∈ b.closings, x.client = ⟨0, "db", "a", ""⟩) ∧
    ∃ x ∈ b.closings, x.client = ⟨1, "db", "b", ""⟩ := by
  intro b
  have has : Obeys Available (Buffer.start .around) replacements := by decide +kernel
  have hsettled : b.IsSettled := by decide +kernel
  have hvirtual : Obeys (Virtual ⟨0, "db", "a", ""⟩) (Buffer.start .around) replacements := by
    decide +kernel
  have hvirtual' : Obeys (Virtual ⟨1, "db", "b", ""⟩) (Buffer.start .around) replacements := by
    decide +kernel
  obtain ⟨_, hfirst⟩ := closed_when_grace_is_over .around replacements rfl has
    ⟨0, "db", "a", ""⟩ .zero (by decide +kernel)
  obtain ⟨_, hsecond⟩ := closed_when_grace_is_over .around replacements rfl has
    ⟨1, "db", "b", ""⟩ (.ofSeconds 10) (by decide +kernel)
  obtain ⟨hbefore, hafter⟩ := hfirst 0 "db" ⟨"a", .ofSeconds 120⟩ ⟨"a", .ofSeconds 120⟩
    (by decide +kernel) (by decide +kernel)
  obtain ⟨_, hafter'⟩ := hsecond 1 "db" ⟨"b", .ofSeconds 0⟩ ⟨"b", .ofSeconds 0⟩
    (by decide +kernel) (by decide +kernel)
  exact ⟨has, hsettled, hvirtual, hvirtual', hbefore, hafter hvirtual hsettled (by decide +kernel),
    hafter' hvirtual' hsettled (by decide +kernel)⟩

/--
A client for a target with a timeout of one second is replaced at once. Five seconds pass before its
teardown has its first turn.
-/
def heldUp : List Action :=
  let table address := TargetTable.empty.upsert "db" ⟨address, .ofSeconds 1⟩
  [.edit (table "a"), .begin "db" "", .proceed 0, .proceed 0, .construct 0 .built, .proceed 0,
   .edit (table "b"), .begin "db" "", .proceed 1, .proceed 1, .construct 1 .built, .proceed 1,
   .proceed 1, .pass (.ofSeconds 5), .turn 0]

/--
A teardown sleeps from its first turn on. If time passes before that, then its client is still open
when its grace has been over for long and all is settled.
-/
theorem late_first_turn_defers_close :
    let b := (Buffer.start .around).run heldUp
    let h := (Buffer.start .around).history heldUp
    let target : Target := ⟨"a", .ofSeconds 1⟩
    let client : Connection := ⟨0, "db", "a", ""⟩
    Obeys Available (Buffer.start .around) heldUp ∧
    .displaced client .zero ∈ h ∧
    .resolved 0 "db" (some target) ∈ h ∧ .built 0 target client ∈ h ∧
    b.IsSettled ∧ Span.zero + min target.timeout (.ofSeconds 60) ≤ b.clock ∧
    b.closings = [] ∧ (b.teardowns.map (·.phase)) = [.asleep (.ofSeconds 6)] := by
  decide +kernel

end Buffer

end Upkeep.Client
