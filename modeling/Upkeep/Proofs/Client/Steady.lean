import Upkeep.Proofs.Client.Settled

/-!
This module contains how a buffer gets over races. Calls that overlap may leave a record that is out
of date. When the table is not edited any more and all calls are over, the next call that gets a
client for a configured name brings the record up to date, and from then on all calls for the name
get that client.
-/

namespace Upkeep.Client

open Config

def Action.isEdit : Action → Bool
  | .edit _ => true
  | _ => false

def Action.begins (name : String) : Action → Bool
  | .begin n _ => n = name
  | _ => false

namespace Call

/--
What a call for a name says of the buffer: `P` of the client that it has put into the buffer, and
`Q` of the client that it has given.
-/
def Leads (name : String) (P Q : Connection → Prop) : Call → Prop
  | .begun n _ | .resolved n .. | .constructing n .. | .built n .. => n = name
  | .displaced n client _ _ | .closing n client _ => n = name ∧ P client
  | .done (.client client) => Q client
  | .done _ => True

theorem Leads.mono {name : String} {P P' Q Q' : Connection → Prop} {c : Call}
    (hc : c.Leads name P Q) (hP : ∀ client, P client → P' client)
    (hQ : ∀ client, Q client → Q' client) : c.Leads name P' Q' := by
  cases c with
  | displaced | closing => exact ⟨hc.1, hP _ hc.2⟩
  | done r =>
    cases r with
    | client client => exact hQ client hc
    | error | panicked => trivial
  | begun | resolved | constructing | built => exact hc

end Call

namespace Buffer

variable {b next : Buffer} {past h ms : List Mark} {a : Action} {name : String} {target : Target}

/--
A call for a configured name comes to its client by a record that is up to date, be it one that the
call has found or one that it has made.
-/
theorem Wanted.leads (hb : Wanted name target b) (he : b.Effect a next ms)
    {P P' Q Q' : Connection → Prop} {i : Nat} {c : Call} (hc : b.calls[i]? = some c)
    (hlead : c.Leads name P Q) (hP : ∀ client, P client → P' client)
    (hQ : ∀ client, Q client → Q' client)
    (hkeep : ∀ client, Keeps name target client next → P' client)
    (hend : ∀ client, c.name? = some name → next.calls[i]? = some (.done (.client client)) →
      P' client → Q' client) :
    ∃ c', next.calls[i]? = some c' ∧ c'.Leads name P' Q' := by
  have hset : ∀ {j : Nat} {d d' : Call}, b.calls[j]? = some d → next.calls = b.calls.set j d' →
      (d.Leads name P Q → d = c → next.calls[i]? = some d' → d'.Leads name P' Q') →
      ∃ c', next.calls[i]? = some c' ∧ c'.Leads name P' Q' := by
    intro j d d' hd hcalls hself
    have hi : next.calls[i]? = if i = j then some d' else some c := by
      rw [hcalls, getElem?_set_of_getElem? hd, hc]
    by_cases hij : i = j
    . have hdc : d = c := Option.some.inj (hd.symm.trans (hij ▸ hc))
      rw [if_pos hij] at hi
      exact ⟨d', hi, hself (hdc ▸ hlead) hdc hi⟩
    . exact ⟨c, hi.trans (if_neg hij), hlead.mono hP hQ⟩
  cases he with
  | begin n options =>
    have hlt := (List.getElem?_eq_some_iff.1 hc).1
    exact ⟨c, (List.getElem?_append_left hlt).trans hc, hlead.mono hP hQ⟩
  | resolve j n options hd | attempt j n options wanted client hd | build j n wanted client hd =>
    exact hset hd rfl fun hn _ _ => hn
  | serve j n options r hd =>
    -- a call for the name has found a target
    refine hset hd rfl ?_
    intro hn _ _
    exact absurd (hb.get hd hn) (by simp)
  | refuse => exact hset ‹_› rfl fun _ _ _ => trivial
  | reuse j n options wanted r hd hr ht =>
    refine hset hd rfl ?_
    rintro rfl rfl hi
    have hwanted : wanted = target := Option.some.inj (hb.get hd rfl)
    exact hend _ rfl hi (hkeep _ ⟨r, hr, hwanted ▸ ht, rfl⟩)
  | fail j n wanted client o r hd ho hr =>
    refine hset hd rfl ?_
    intro _ _ _
    cases r with
    | client d => exact absurd rfl (hr d)
    | error | panicked => trivial
  | place j n wanted client hd =>
    refine hset hd rfl ?_
    rintro rfl rfl hi
    have hwanted : wanted = target := hb.get hd rfl
    subst hwanted
    exact hend _ rfl hi (hkeep _ (keeps_of_insert rfl))
  | displace j n wanted client previous hd =>
    refine hset hd rfl ?_
    rintro rfl rfl _
    have hwanted : wanted = target := hb.get hd rfl
    subst hwanted
    exact ⟨rfl, hkeep _ (keeps_of_insert rfl)⟩
  | closeAtOnce j n client previous since hd =>
    exact hset hd rfl fun hn _ _ => ⟨hn.1, hP _ hn.2⟩
  | schedule j n client previous since hd =>
    refine hset hd rfl ?_
    rintro ⟨rfl, hclient⟩ rfl hi
    exact hend _ rfl hi (hP _ hclient)
  | endCloseNow j n client previous o hd =>
    refine hset hd rfl ?_
    rintro ⟨rfl, hclient⟩ rfl hi
    exact hend _ rfl hi (hP _ hclient)
  | _ => exact ⟨c, hc, hlead.mono hP hQ⟩

theorem given_of_leads {P Q : Connection → Prop} {i : Nat} {client : Connection}
    (hlead : ∃ c, b.calls[i]? = some c ∧ c.Leads name P Q)
    (hdone : b.calls[i]? = some (.done (.client client))) : Q client := by
  obtain ⟨c, hc, hlead⟩ := hlead
  rw [hdone, Option.some.injEq] at hc
  subst hc
  exact hlead

/--
Among calls that overlap, the record that a call comes to its client by stays up to date, if not the
client of the record.
-/
theorem Wanted.leads_of_run (hb : Wanted name target b) (hconfigured : target.isConfigured = true)
    (as : List Action) (hstable : ∀ t, .edit t ∉ as) {i : Nat}
    (hi : ∃ c, b.calls[i]? = some c ∧
      c.Leads name (fun _ => b.currentTarget? name = some target.address)
        (fun _ => b.currentTarget? name = some target.address)) :
    ∃ c, (b.run as).calls[i]? = some c ∧
      c.Leads name (fun _ => (b.run as).currentTarget? name = some target.address)
        (fun _ => (b.run as).currentTarget? name = some target.address) := by
  have hrun := stable_invariant
    (fun b _ => Wanted name target b ∧ ∃ c, b.calls[i]? = some c ∧
      c.Leads name (fun _ => b.currentTarget? name = some target.address)
        (fun _ => b.currentTarget? name = some target.address)) ?_ as hstable b ⟨hb, hi⟩
  . exact hrun.2
  . rintro b _ a next ms ha he ⟨hb, c, hc, hlead⟩
    have hcurrent := hb.currentTarget? he
    exact ⟨hb.step hconfigured ha he, hb.leads he hc hlead (fun _ => hcurrent) (fun _ => hcurrent)
      (fun _ hkeeps => hkeeps.currentTarget?) fun _ _ _ h => h⟩

/--
A call that is on its way for a name was so before, unless it has just begun.
-/
theorem Effect.named (he : b.Effect a next ms) (hbegin : ∀ n options, a ≠ .begin n options)
    {k : Nat} {d : Call} (hd : next.calls[k]? = some d) (hname : d.name? = some name) :
    ∃ c, b.calls[k]? = some c ∧ c.name? = some name := by
  have hlength : next.calls.length = b.calls.length := by
    cases he with
    | begin n options => exact absurd rfl (hbegin n options)
    | resolve | serve | refuse | reuse | attempt | build | fail | place | displace | closeAtOnce
    | schedule | endCloseNow => exact List.length_set
    | _ => rfl
  have hlt := (List.getElem?_eq_some_iff.1 hd).1
  obtain ⟨c, hc⟩ : ∃ c, b.calls[k]? = some c := ⟨_, List.getElem?_eq_getElem (hlength ▸ hlt)⟩
  obtain ⟨c', hc', hstep⟩ := he.call hc
  rw [hd, Option.some.injEq] at hc'
  subst hc'
  rcases hstep with rfl | hn
  . exact ⟨d, hc, hname⟩
  . exact ⟨c, hc, hn.name? hname⟩

/--
Whether an action leaves the table as it is and keeps the calls for a name from overlapping.
-/
def Apart (name : String) (b : Buffer) (a : Action) : Prop :=
  a.isEdit = false ∧ (a.begins name = true → ∀ c ∈ b.calls, c.name? ≠ some name)

instance (name : String) (b : Buffer) (a : Action) : Decidable (b.Apart name a) :=
  inferInstanceAs (Decidable (_ ∧ (_ → _)))

theorem Apart.ne_edit (ha : b.Apart name a) (t : TargetTable) : a ≠ .edit t := by
  rintro rfl
  exact absurd ha.1 (by simp [Action.isEdit])

/--
No two calls for a name are on their way.
-/
def AloneFor (name : String) (b : Buffer) : Prop :=
  ∀ (i j : Nat) c d, b.calls[i]? = some c → b.calls[j]? = some d →
    c.name? = some name → d.name? = some name → i = j

namespace AloneFor

theorem of_over (hover : ∀ c ∈ b.calls, c.isOver = true) : AloneFor name b := by
  intro i j c d hc _ hname
  simp [Call.name?_of_isOver (hover c (List.mem_of_getElem? hc))] at hname

theorem begin (hb : AloneFor name b) (n options : String)
    (hnone : n = name → ∀ c ∈ b.calls, c.name? ≠ some name) :
    AloneFor name { b with calls := b.calls ++ [.begun n options] } := by
  have hnew : ∀ (j k : Nat) d e, (b.calls ++ [.begun n options])[j]? = some d →
      (b.calls ++ [.begun n options])[k]? = some e → d.name? = some name → e.name? = some name →
      j = b.calls.length → k = b.calls.length := by
    intro j k d e hd he hdn hen hj
    rcases origin_of_concat he with ⟨hk, _⟩ | ⟨_, he⟩
    . exact hk
    . rcases origin_of_concat hd with ⟨_, rfl⟩ | ⟨hlt, _⟩
      . exact absurd hen (hnone (Option.some.inj hdn) e (List.mem_of_getElem? he))
      . omega
  intro j k d e hd he hdn hen
  rcases origin_of_concat hd with ⟨hj, _⟩ | ⟨_, hd'⟩
  . rw [hj, hnew j k d e hd he hdn hen hj]
  . rcases origin_of_concat he with ⟨hk, _⟩ | ⟨_, he'⟩
    . rw [hk, hnew k j e d he hd hen hdn hk]
    . exact hb j k d e hd' he' hdn hen

theorem step (hb : AloneFor name b) (ha : b.Apart name a) (he : b.Effect a next ms) :
    AloneFor name next := by
  by_cases hbegin : ∃ n options, a = .begin n options
  . obtain ⟨n, options, rfl⟩ := hbegin
    cases he with
    | idle => exact hb
    | begin => exact hb.begin n options fun hn => ha.2 (by simp [Action.begins, hn])
  . intro j k d e hd hd' hdn hen
    obtain ⟨c, hc, hcn⟩ := he.named (fun n o h => hbegin ⟨n, o, h⟩) hd hdn
    obtain ⟨c', hc', hcn'⟩ := he.named (fun n o h => hbegin ⟨n, o, h⟩) hd' hen
    exact hb j k c c' hc hc' hcn hcn'

/--
When the only call for a name that is on its way has ended, none is.
-/
theorem none_of_done (hb : AloneFor name b) (he : b.Effect a next ms) {i : Nat} {c : Call}
    {r : Result} (hc : b.calls[i]? = some c) (hname : c.name? = some name)
    (hdone : next.calls[i]? = some (.done r)) : ∀ d ∈ next.calls, d.name? ≠ some name := by
  have hbegin : ∀ n options, a ≠ .begin n options := by
    rintro n options rfl
    have hsame : next.calls[i]? = some c := by
      cases he with
      | idle => exact hc
      | begin =>
        have hlt := (List.getElem?_eq_some_iff.1 hc).1
        exact (List.getElem?_append_left hlt).trans hc
    rw [hsame, Option.some.injEq] at hdone
    simp [hdone, Call.name?] at hname
  intro d hd hdn
  obtain ⟨k, hk⟩ := List.mem_iff_getElem?.1 hd
  obtain ⟨e, hke, hen⟩ := he.named hbegin hk hdn
  have hik := hb k i e c hke hc hen hname
  rw [hik, hdone, Option.some.injEq] at hk
  simp [← hk, Call.name?] at hdn

end AloneFor

def buildsFor (name : String) (h : List Mark) : Nat := (builtClients h).countP (·.name = name)

theorem buildsFor_append_of_builds (name : String) (h ms : List Mark) (hms : builds ms = []) :
    buildsFor name (h ++ ms) = buildsFor name h := by
  rw [buildsFor, builtClients_append, builtClients_eq_nil ms hms, List.append_nil, buildsFor]

theorem buildsFor_concat (name : String) (h : List Mark) (i : Nat) (wanted : Target)
    (client : Connection) :
    buildsFor name (h ++ [.built i wanted client]) =
      buildsFor name h + if client.name = name then 1 else 0 := by
  have hone : builtClients [.built i wanted client] = [client] := rfl
  rw [buildsFor, builtClients_append, hone, List.countP_append, buildsFor, List.countP_singleton]
  simp

/--
What holds of a name while its calls do not overlap and nobody edits the table. As long as the
record is out of date, no client has been built for the name but one that its call is about to put
into the buffer. When the record is up to date, no constructor is run for the name.
-/
structure Recovering (name : String) (target : Target) (b : Buffer) (h : List Mark) : Prop where
  wanted : Wanted name target b
  alone : AloneFor name b
  idle : b.currentTarget? name = some target.address →
    ∀ c ∈ b.calls, c.name? = some name → c.isBusy = false
  once : buildsFor name h ≤ 1
  first : b.currentTarget? name ≠ some target.address →
    (∀ (i : Nat) wanted client, b.calls[i]? ≠ some (.built name wanted client)) →
    buildsFor name h = 0

/--
A client that was built for a name is with its call until the record is up to date.
-/
theorem Wanted.built_stays (hb : Wanted name target b) (he : b.Effect a next ms) {i : Nat}
    {wanted : Target} {client : Connection} (hc : b.calls[i]? = some (.built name wanted client))
    (hold : next.currentTarget? name ≠ some target.address) :
    next.calls[i]? = some (.built name wanted client) := by
  have hlead : (Call.built name wanted client).Leads name
      (fun _ => next.currentTarget? name = some target.address)
      (fun _ => next.currentTarget? name = some target.address) := rfl
  obtain ⟨c', hc', hlead'⟩ := hb.leads he hc hlead (fun _ h => h) (fun _ h => h)
    (fun _ hkeeps => hkeeps.currentTarget?) (fun _ _ _ h => h)
  obtain ⟨d, hd, hstep⟩ := he.call hc
  rw [hc', Option.some.injEq] at hd
  subst hd
  rcases hstep with rfl | hn
  . exact hc'
  . cases hn with
    | place => exact absurd hlead' hold
    | displace => exact absurd hlead'.2 hold

namespace Recovering

theorem of_over (hget : b.table.get? name = some target) (hover : ∀ c ∈ b.calls, c.isOver = true) :
    Recovering name target b [] := by
  refine ⟨.of_over hget hover, .of_over hover, ?_, Nat.zero_le _, fun _ _ => rfl⟩
  intro _ c hc hname
  simp [Call.name?_of_isOver (hover c hc)] at hname

theorem idle_step (hb : Recovering name target b h) (he : b.Effect a next ms)
    (hcurrent : next.currentTarget? name = some target.address) :
    ∀ c ∈ next.calls, c.name? = some name → c.isBusy = false := by
  have hset : ∀ {i : Nat} {c' : Call}, next.calls = b.calls.set i c' →
      next.records = b.records → (c'.name? = some name → c'.isBusy = false) →
      ∀ c ∈ next.calls, c.name? = some name → c.isBusy = false := by
    intro i c' hcalls hrecords hself c hc
    rw [Buffer.currentTarget?, record?, hrecords] at hcurrent
    rw [hcalls] at hc
    rcases List.mem_or_eq_of_mem_set hc with hc | rfl
    . exact hb.idle hcurrent c hc
    . exact hself
  have hinsert : ∀ {i : Nat} {n : String} {wanted : Target} {client : Connection} {c' : Call},
      b.calls[i]? = some (.built n wanted client) → next.calls = b.calls.set i c' →
      next.records = b.records.insert n (Record.make client wanted.address wanted.timeout) →
      c'.isBusy = false → ∀ c ∈ next.calls, c.name? = some name → c.isBusy = false := by
    intro i n wanted client c' hd hcalls hrecords hself c hc hname
    rw [hcalls] at hc
    obtain ⟨k, hk⟩ := List.mem_iff_getElem?.1 hc
    rcases origin_of_set hk with ⟨_, rfl⟩ | ⟨hki, hk⟩
    . exact hself
    . by_cases hn : n = name
      . subst hn
        exact absurd (hb.alone k i _ _ hk hd hname rfl) hki
      . rw [Buffer.currentTarget?, record?, hrecords,
          Dict.get?_insert, if_neg fun heq => hn heq.symm] at hcurrent
        exact hb.idle hcurrent c (List.mem_of_getElem? hk) hname
  cases he with
  | begin n options =>
    intro c hc hname
    rcases List.mem_append.1 hc with hc | hc
    . exact hb.idle hcurrent c hc hname
    . rw [List.mem_singleton.1 hc]
      rfl
  | attempt i n options wanted client hc hr =>
    refine hset rfl rfl ?_
    intro hname
    cases hname
    have hwanted : wanted = target := Option.some.inj (hb.wanted.get hc rfl)
    obtain ⟨r, hrecord, ht⟩ := Option.map_eq_some_iff.1 hcurrent
    exact absurd (hwanted ▸ ht) (hr r hrecord)
  | build i n wanted client hc =>
    refine hset rfl rfl ?_
    intro hname
    exact absurd (hb.idle hcurrent _ (List.mem_of_getElem? hc) hname) (by simp [Call.isBusy])
  | place i n wanted client hc => exact hinsert hc rfl rfl rfl
  | displace i n wanted client previous hc => exact hinsert hc rfl rfl rfl
  | resolve | serve | refuse | reuse | fail | closeAtOnce | schedule | endCloseNow =>
    exact hset rfl rfl fun _ => rfl
  | _ => exact hb.idle hcurrent

theorem of_builds (hb : Recovering name target b h) (he : b.Effect a next ms)
    (hwanted : Wanted name target next) (halone : AloneFor name next) (hms : builds ms = []) :
    Recovering name target next (h ++ ms) := by
  have hbuilds := buildsFor_append_of_builds name h ms hms
  refine ⟨hwanted, halone, hb.idle_step he, hbuilds ▸ hb.once, ?_⟩
  intro hold hnone
  rw [hbuilds]
  apply hb.first
  . exact fun hcurrent => hold (hb.wanted.currentTarget? he hcurrent)
  . exact fun i wanted client hc => hnone i wanted client (hb.wanted.built_stays he hc hold)

theorem build (hb : Recovering name target b h) (hnumbered : Numbered b past) {i : Nat} {n : String}
    {wanted : Target} {client : Connection}
    (hc : b.calls[i]? = some (.constructing n wanted client))
    (hwanted : Wanted name target { b with calls := b.calls.set i (.built n wanted client) })
    (halone : AloneFor name { b with calls := b.calls.set i (.built n wanted client) }) :
    Recovering name target { b with calls := b.calls.set i (.built n wanted client) }
      (h ++ [.built i wanted client]) := by
  have hclient : client.name = n := (hnumbered.fresh i n wanted client hc).2.1
  have hbuilds := buildsFor_concat name h i wanted client
  have hcalls := getElem?_set_of_getElem? hc (.built n wanted client)
  have hidle := hb.idle_step (.build i n wanted client hc)
  by_cases hn : n = name
  . subst hn
    -- the constructor would not have been run for a record that is up to date
    have hold : b.currentTarget? n ≠ some target.address := by
      intro hcurrent
      simpa [Call.isBusy] using hb.idle hcurrent _ (List.mem_of_getElem? hc) rfl
    have hnone : ∀ (j : Nat) t c, b.calls[j]? ≠ some (.built n t c) := by
      intro j t c hj
      have hji := hb.alone j i _ _ hj hc rfl rfl
      rw [hji, hc] at hj
      simp at hj
    rw [hb.first hold hnone, if_pos hclient] at hbuilds
    refine ⟨hwanted, halone, hidle, Nat.le_of_eq hbuilds, ?_⟩
    intro _ hnone'
    exact absurd ((hcalls i).trans (if_pos rfl)) (hnone' i wanted client)
  . rw [if_neg (hclient ▸ hn), Nat.add_zero] at hbuilds
    refine ⟨hwanted, halone, hidle, hbuilds ▸ hb.once, ?_⟩
    intro hold hnone
    rw [hbuilds]
    refine hb.first hold ?_
    intro j t c hj
    refine hnone j t c ?_
    rw [hcalls, if_neg, hj]
    rintro rfl
    rw [hc] at hj
    simp at hj

theorem step (hb : Recovering name target b h) (hconfigured : target.isConfigured = true)
    (hnumbered : Numbered b past) (ha : b.Apart name a) (he : b.Effect a next ms) :
    Recovering name target next (h ++ ms) := by
  have hwanted := hb.wanted.step hconfigured ha.ne_edit he
  have halone := hb.alone.step ha he
  have he' := he
  cases he with
  | build i n wanted client hc => exact hb.build hnumbered hc hwanted halone
  | drain | redrain => exact hb.of_builds he' hwanted halone (by split <;> rfl)
  | _ => exact hb.of_builds he' hwanted halone rfl

/--
A call for the name comes to a client, and with that the name is settled.
-/
theorem leads (hb : Recovering name target b h) (hconfigured : target.isConfigured = true)
    (ha : b.Apart name a) (he : b.Effect a next ms) {i : Nat}
    (hi : ∃ c, b.calls[i]? = some c ∧
      c.Leads name (Keeps name target · b) (Settled name target · b)) :
    ∃ c, next.calls[i]? = some c ∧
      c.Leads name (Keeps name target · next) (Settled name target · next) := by
  obtain ⟨c, hc, hlead⟩ := hi
  refine hb.wanted.leads he hc hlead ?_ ?_ (fun _ hkeeps => hkeeps) ?_
  . intro client hkeeps
    obtain ⟨r, hr, ht, hclient⟩ := hkeeps
    rcases he.record?_eq name with hsame | ⟨j, wanted, d, _, hd, _⟩
    . exact ⟨r, hsame.trans hr, ht, hclient⟩
    . have hcurrent : b.currentTarget? name = some target.address :=
        Keeps.currentTarget? ⟨r, hr, ht, hclient⟩
      exact absurd (hb.idle hcurrent _ (List.mem_of_getElem? hd) rfl) (by simp [Call.isBusy])
  . exact fun client hsettled => hsettled.step hconfigured ha.ne_edit he
  . intro client hname hdone hkeeps
    refine ⟨hb.wanted.step hconfigured ha.ne_edit he, hkeeps, ?_⟩
    intro d hd hdn
    exact absurd hdn (hb.alone.none_of_done he hc hname hdone d hd)

theorem of_run (hnumbered : Numbered b past) (hget : b.table.get? name = some target)
    (hconfigured : target.isConfigured = true) (hover : ∀ c ∈ b.calls, c.isOver = true)
    (as : List Action) (happart : Obeys (Apart name) b as) :
    Numbered (b.run as) (past ++ b.history as) ∧ Recovering name target (b.run as) (b.history as) :=
  run_invariant (Apart name) (fun b h => Numbered b (past ++ h) ∧ Recovering name target b h)
    (fun _ h _ _ ms ha he hb => ⟨List.append_assoc past h ms ▸ hb.1.step he,
      hb.2.step hconfigured hb.1 ha he⟩) as b []
    ⟨(List.append_nil past).symm ▸ hnumbered, .of_over hget hover⟩ happart

theorem leads_of_run (hb : Recovering name target b h) (hnumbered : Numbered b (past ++ h))
    (hconfigured : target.isConfigured = true) (as : List Action)
    (happart : Obeys (Apart name) b as) {i : Nat}
    (hi : ∃ c, b.calls[i]? = some c ∧
      c.Leads name (Keeps name target · b) (Settled name target · b)) :
    ∃ c, (b.run as).calls[i]? = some c ∧
      c.Leads name (Keeps name target · (b.run as)) (Settled name target · (b.run as)) := by
  have hrun := run_invariant (Apart name)
    (fun b h => Numbered b (past ++ h) ∧ Recovering name target b h ∧
      ∃ c, b.calls[i]? = some c ∧ c.Leads name (Keeps name target · b) (Settled name target · b))
    ?_ as b h ⟨hnumbered, hb, hi⟩ happart
  . exact hrun.2.2
  . rintro b h a next ms ha he ⟨hnumbered, hb, hi⟩
    exact ⟨List.append_assoc past h ms ▸ hnumbered.step he,
      hb.step hconfigured hnumbered ha he, hb.leads hconfigured ha he hi⟩

end Recovering

/--
A call that comes to its client and does not overlap with others for its name settles the name.
-/
theorem settled_of_run (hnumbered : Numbered b past) (hget : b.table.get? name = some target)
    (hconfigured : target.isConfigured = true) (hover : ∀ c ∈ b.calls, c.isOver = true)
    (bs ds : List Action) (options : String)
    (happart : Obeys (Apart name) b (bs ++ .begin name options :: ds)) {client : Connection}
    (hdone : (b.run (bs ++ .begin name options :: ds)).calls[(b.run bs).calls.length]? =
      some (.done (.client client))) :
    Settled name target client (b.run (bs ++ .begin name options :: ds)) := by
  have hbefore := Recovering.of_run hnumbered hget hconfigured hover bs happart.of_append
  obtain ⟨hbegin, hrest⟩ : (b.run bs).Apart name (.begin name options) ∧
      Obeys (Apart name) ((b.run bs).step (.begin name options)).1 ds := happart.after
  have he := (b.run bs).step_effect (.begin name options)
  have hbegun := hbefore.2.step hconfigured hbefore.1 hbegin he
  have hnumbered' := List.append_assoc past _ _ ▸ hbefore.1.step he
  have hcall : ((b.run bs).step (.begin name options)).1.calls[(b.run bs).calls.length]? =
      some (.begun name options) := List.getElem?_concat_length
  have hlead := hbegun.leads_of_run hnumbered' hconfigured ds hrest ⟨_, hcall, rfl⟩
  rw [run_append] at hdone ⊢
  exact given_of_leads hlead hdone

/--
A call for a configured name that comes to its client has brought the record up to date, also among
calls that overlap.
-/
theorem current_of_run (hget : b.table.get? name = some target)
    (hconfigured : target.isConfigured = true) (hover : ∀ c ∈ b.calls, c.isOver = true)
    (bs ds : List Action) (options : String)
    (hstable : ∀ t, .edit t ∉ bs ++ .begin name options :: ds) {client : Connection}
    (hdone : (b.run (bs ++ .begin name options :: ds)).calls[(b.run bs).calls.length]? =
      some (.done (.client client))) :
    (b.run (bs ++ .begin name options :: ds)).currentTarget? name = some target.address := by
  have hbefore := (Wanted.of_over hget hover).of_run hconfigured bs
    fun t ht => hstable t (List.mem_append_left _ ht)
  have hbegun := hbefore.step hconfigured (by simp)
    ((b.run bs).step_effect (.begin name options))
  have hcall : ((b.run bs).step (.begin name options)).1.calls[(b.run bs).calls.length]? =
      some (.begun name options) := List.getElem?_concat_length
  have hlead := hbegun.leads_of_run hconfigured ds
    (fun t ht => hstable t (List.mem_append_right _ (List.mem_cons_of_mem _ ht))) ⟨_, hcall, rfl⟩
  rw [run_append] at hdone ⊢
  exact given_of_leads hlead hdone

/--
Calls that overlapped and edits may have left the record of a name out of date. When all calls are
over and nobody edits the table any more, each call that comes to its client brings the record up to
date and runs the constructor at most once, also among calls that overlap. If the calls for the name
do not overlap with each other, at most one client is built for the name, and from then on the
record stays as it is: however later calls overlap, each one for the name gets that client in two
steps and does not run the constructor, and no client of the name is taken out or closed later.
-/
theorem next_call_settles_name (runtime : Runtime) (as : List Action) (name : String)
    (target : Target) (hover : ∀ c ∈ ((Buffer.start runtime).run as).calls, c.isOver = true)
    (hget : ((Buffer.start runtime).run as).table.get? name = some target)
    (hconfigured : target.isConfigured = true) (bs ds : List Action) (options : String)
    (hstable : ∀ t, .edit t ∉ bs ++ .begin name options :: ds) (client : Connection) :
    let b := (Buffer.start runtime).run as
    let cs := bs ++ .begin name options :: ds
    let i := (b.run bs).calls.length
    let next := b.run cs
    next.calls[i]? = some (.done (.client client)) →
    next.currentTarget? name = some target.address ∧
    (b.history cs).count (.attempted i) ≤ 1 ∧
    (Obeys (Apart name) b cs →
      buildsFor name (b.history cs) ≤ 1 ∧
      ∀ es, (∀ t, .edit t ∉ es) →
        (next.run es).clientAt (.record name) = some client ∧
        (next.run es).currentTarget? name = some target.address ∧
        (∀ c t, .displaced c t ∈ next.history es → c.name ≠ name) ∧
        ((next.run es).teardowns.map (·.name)).count name =
          (next.teardowns.map (·.name)).count name ∧
        ∀ fs gs options', es = fs ++ .begin name options' :: gs →
          let j := (next.run fs).calls.length
          (next.run es).calls[j]? =
            some (.settled name options' target client (gs.countP (·.proceeds j))) ∧
          .attempted j ∉ next.history es) := by
  intro b cs i next hdone
  have hnumbered : Numbered b ((Buffer.start runtime).history as) :=
    (Sound.of_run runtime as).numbered
  refine ⟨current_of_run hget hconfigured hover bs ds options hstable hdone, ?_, ?_⟩
  . have honce := attempted_once runtime (as ++ cs) i
    rw [history_append, List.count_append] at honce
    exact Nat.le_trans (Nat.le_add_left ..) honce
  . intro happart
    have hsettled : Settled name target client next :=
      settled_of_run hnumbered hget hconfigured hover bs ds options happart hdone
    obtain ⟨hnumbered', hrecovering⟩ :=
      Recovering.of_run hnumbered hget hconfigured hover cs happart
    refine ⟨hrecovering.once, ?_⟩
    intro es hes
    have hlast := hsettled.of_run hconfigured es hes
    refine ⟨hlast.clientAt_record, hlast.keeps.currentTarget?,
      fun c t hm => hsettled.displaced_of_run hnumbered' hconfigured es hes hm,
      hsettled.teardowns_of_run hconfigured es hes, ?_⟩
    rintro fs gs options' rfl
    have hall : (Buffer.start runtime).run (as ++ cs) = next := run_append _ as cs
    have hrecounted := Recounted.of_run runtime (as ++ cs ++ fs)
    rw [run_append _ (as ++ cs) fs, history_append _ (as ++ cs) fs, hall] at hrecounted
    exact hsettled.later_call hconfigured fs gs hes hrecounted

/--
Calls for one name that overlap may each build a client.
-/
example :
    buildsFor "db" ((Buffer.start .around).history
      [.edit (tableTo "a"), .begin "db" "", .begin "db" "", .proceed 0, .proceed 1, .proceed 0,
        .proceed 1, .construct 0 .built, .construct 1 .built]) = 2 := by
  decide +kernel

/--
The table is edited between two calls that overlap. The one that has found the old target is the
last to put its client into the buffer.
-/
def raceOverEdit : List Action :=
  [.edit (tableTo "a"), .begin "db" "", .proceed 0, .edit (tableTo "b"), .begin "db" "",
   .proceed 1, .proceed 1, .construct 1 .built, .proceed 1,
   .proceed 0, .construct 0 .built, .proceed 0, .proceed 0]

def retryInVain : List Action :=
  [.begin "db" "", .proceed 2, .proceed 2, .construct 2 (.refused default)]

def retry : List Action := [.proceed 3, .proceed 3, .construct 3 .built, .proceed 3, .proceed 3]

theorem next_call_settles_race :
    let b := (Buffer.start .around).run raceOverEdit
    let cs := retryInVain ++ .begin "db" "" :: retry
    let es := [.begin "db" "x", .proceed 4, .turn 0, .proceed 4]
    b.currentTarget? "db" = some "a" ∧
    (b.run cs).currentTarget? "db" = some "b" ∧
    (b.history cs).count (.attempted 3) ≤ 1 ∧
    buildsFor "db" (b.history cs) ≤ 1 ∧
    ((b.run cs).run es).calls[4]? = some (.done (.client ⟨3, "db", "b", ""⟩)) ∧
    .attempted 4 ∉ (b.run cs).history es := by
  intro b cs es
  obtain ⟨hcurrent, honce, hsettled⟩ := next_call_settles_name .around raceOverEdit "db"
    ⟨"b", .ofSeconds 1⟩ (by decide +kernel) (by decide +kernel) (by decide +kernel) retryInVain
    retry "" (by simp [retryInVain, retry]) ⟨3, "db", "b", ""⟩ (by decide +kernel)
  obtain ⟨hbuilds, hlater⟩ := hsettled (by decide +kernel)
  obtain ⟨_, _, _, _, hcalls⟩ := hlater es (by simp [es])
  obtain ⟨hcall, hattempted⟩ := hcalls [] [.proceed 4, .turn 0, .proceed 4] "x" rfl
  exact ⟨by decide +kernel, hcurrent, honce, hbuilds, hcall, hattempted⟩

end Buffer

end Upkeep.Client
