import Mathlib.Data.List.Nodup
import Mathlib.Logic.Function.Basic
import Upkeep.Proofs.Client.History

/-!
This module contains the proof that a buffer neither loses nor doubles a client: each client that
was built is in exactly one place, wherever the calls and teardowns stand that may move it.
-/

namespace Upkeep.Client

open Config

/--
Where a client may be: with the call that built it, in the record of a name, with the call that has
taken it out of the buffer, with a teardown that has not called the closer, or handed to a closer.
-/
inductive Place where
  | builder (call : Nat)
  | record (name : String)
  | displacer (call : Nat)
  | teardown (task : Nat)
  | closer (n : Nat)
  deriving DecidableEq

def Place.isOutside : Place → Bool
  | builder _ | record _ => false
  | displacer _ | teardown _ | closer _ => true

def Call.unplaced? : Call → Option Connection
  | .built _ _ client => some client
  | _ => none

def Call.displaced? : Call → Option Connection
  | .displaced _ _ previous _ => some previous.client
  | _ => none

/--
The client of a teardown that has not called the closer.
-/
def Teardown.unclosed? (t : Teardown) : Option Connection :=
  match t.phase with
  | .closing | .finished => none
  | _ => some t.previous.client

def Mark.displaced? : Mark → Option Connection
  | .displaced client _ => some client
  | _ => none

def displacedClients (h : List Mark) : List Connection := h.filterMap Mark.displaced?

@[simp]
theorem displacedClients_append (h ms : List Mark) :
    displacedClients (h ++ ms) = displacedClients h ++ displacedClients ms := by
  simp [displacedClients]

theorem mem_displacedClients {h : List Mark} {c : Connection} {t : Span}
    (hm : .displaced c t ∈ h) : c ∈ displacedClients h :=
  List.mem_filterMap.2 ⟨_, hm, rfl⟩

def Call.isBusy : Call → Bool
  | .constructing .. | .built .. => true
  | _ => false

def Buffer.clientAt (b : Buffer) : Place → Option Connection
  | .builder i => (b.calls[i]?).bind Call.unplaced?
  | .record name => (b.record? name).map (·.client)
  | .displacer i => (b.calls[i]?).bind Call.displaced?
  | .teardown i => (b.teardowns[i]?).bind Teardown.unclosed?
  | .closer n => (b.closings[n]?).map (·.client)

/--
Places hold the clients that were built, each of them once, and hold those outside that were taken
out.
-/
structure Conserved (f : Place → Option Connection) (built gone : List Connection) : Prop where
  sound : ∀ p c, f p = some c → c ∈ built
  complete : ∀ c ∈ built, ∃ p, f p = some c
  unique : ∀ p q c, f p = some c → f q = some c → p = q
  outside : ∀ c ∈ gone, ∃ p, f p = some c ∧ p.isOutside

namespace Conserved

variable {f : Place → Option Connection} {built gone : List Connection} {c : Connection}

theorem add (h : Conserved f built gone) (q : Place) (hq : f q = none) (hc : c ∉ built) :
    Conserved (Function.update f q (some c)) (built ++ [c]) gone := by
  have hne : ∀ p d, f p = some d → p ≠ q := by
    intro p d hp hpq
    simp [hpq, hq] at hp
  have hnew : ∀ p, f p ≠ some c := fun p hp => hc (h.sound p c hp)
  refine ⟨?_, ?_, ?_, ?_⟩
  . intro p d hp
    by_cases hpq : p = q
    . simp_all
    . rw [Function.update_of_ne hpq] at hp
      simp [h.sound p d hp]
  . intro d hd
    rcases List.mem_append.1 hd with hd | hd
    . obtain ⟨p, hp⟩ := h.complete d hd
      exact ⟨p, by rw [Function.update_of_ne (hne p d hp), hp]⟩
    . exact ⟨q, by simp_all⟩
  . intro p r d hp hr
    by_cases hpq : p = q <;> by_cases hrq : r = q
    . rw [hpq, hrq]
    . simp_all
    . simp_all
    . rw [Function.update_of_ne hpq] at hp
      rw [Function.update_of_ne hrq] at hr
      exact h.unique p r d hp hr
  . intro d hd
    obtain ⟨p, hp, hout⟩ := h.outside d hd
    exact ⟨p, by rw [Function.update_of_ne (hne p d hp), hp], hout⟩

theorem move (h : Conserved f built gone) (p q : Place) (hp : f p = some c) (hq : f q = none)
    (hout : p.isOutside → q.isOutside) :
    Conserved (Function.update (Function.update f p none) q (some c)) built gone := by
  have hpq : p ≠ q := by
    intro hpq
    simp [← hpq, hp] at hq
  -- what is in a place afterwards was there before, or has come from `p` to `q`
  have hback : ∀ r d, Function.update (Function.update f p none) q (some c) r = some d →
      r = q ∧ d = c ∨ r ≠ q ∧ r ≠ p ∧ f r = some d := by
    intro r d hr
    by_cases hrq : r = q
    . simp_all
    . by_cases hrp : r = p <;> simp_all
  have hforth : ∀ r d, f r = some d →
      ∃ s, Function.update (Function.update f p none) q (some c) s = some d ∧
        (r.isOutside → s.isOutside) := by
    intro r d hr
    by_cases hrp : r = p
    . refine ⟨q, ?_, ?_⟩
      . simp_all
      . rw [hrp]
        exact hout
    . have hrq : r ≠ q := by
        intro hrq
        simp [hrq, hq] at hr
      exact ⟨r, by simp [hrq, hrp, hr], id⟩
  refine ⟨?_, ?_, ?_, ?_⟩
  . intro r d hr
    rcases hback r d hr with ⟨_, hd⟩ | ⟨_, _, hr⟩
    . exact hd ▸ h.sound p c hp
    . exact h.sound r d hr
  . intro d hd
    obtain ⟨r, hr⟩ := h.complete d hd
    obtain ⟨s, hs, _⟩ := hforth r d hr
    exact ⟨s, hs⟩
  . intro r s d hr hs
    rcases hback r d hr with ⟨hrq, hd⟩ | ⟨_, hrp, hr⟩ <;>
      rcases hback s d hs with ⟨hsq, hd'⟩ | ⟨_, hsp, hs⟩
    . rw [hrq, hsq]
    . exact absurd (h.unique s p d hs (hd ▸ hp)) hsp
    . exact absurd (h.unique r p d hr (hd' ▸ hp)) hrp
    . exact h.unique r s d hr hs
  . intro d hd
    obtain ⟨r, hr, hrout⟩ := h.outside d hd
    obtain ⟨s, hs, hsout⟩ := hforth r d hr
    exact ⟨s, hs, hsout hrout⟩

theorem goes (h : Conserved f built gone) (p : Place) (hp : f p = some c)
    (hout : p.isOutside) : Conserved f built (gone ++ [c]) := by
  refine ⟨h.sound, h.complete, h.unique, ?_⟩
  intro d hd
  rcases List.mem_append.1 hd with hd | hd
  . exact h.outside d hd
  . exact ⟨p, by simp_all, hout⟩

end Conserved

namespace Teardown

theorem unclosed?_cancel (t : Teardown) : t.cancel.unclosed? = t.unclosed? := by
  cases t with
  | mk name previous since phase => cases phase <;> rfl

theorem previous_cancel (t : Teardown) : t.cancel.previous = t.previous := by
  unfold cancel
  split <;> rfl

end Teardown

namespace Buffer

variable (b : Buffer)

theorem clientAt_eq_of_set {next : Buffer} {i : Nat} {c c' : Call} (hc : b.calls[i]? = some c)
    (hcalls : next.calls = b.calls.set i c') (hu : c'.unplaced? = c.unplaced?)
    (hd : c'.displaced? = c.displaced?) (hrecords : next.records = b.records)
    (hteardowns : next.teardowns = b.teardowns) (hclosings : next.closings = b.closings) :
    next.clientAt = b.clientAt := by
  funext p
  cases p with
  | builder j | displacer j =>
    simp only [clientAt, hcalls, getElem?_set_of_getElem? hc]
    split
    . next hij => simp [hij, hc, hu, hd]
    . rfl
  | record name => simp only [clientAt, record?, hrecords]
  | teardown i => simp only [clientAt, hteardowns]
  | closer n => simp only [clientAt, hclosings]

theorem clientAt_eq_of_teardowns (next : Buffer) (hcalls : next.calls = b.calls)
    (hrecords : next.records = b.records)
    (hteardowns : ∀ i : Nat, (next.teardowns[i]?).bind Teardown.unclosed? =
      (b.teardowns[i]?).bind Teardown.unclosed?)
    (hclosings : next.closings = b.closings) : next.clientAt = b.clientAt := by
  funext p
  cases p with
  | builder i | displacer i => simp only [clientAt, hcalls]
  | record name => simp only [clientAt, record?, hrecords]
  | teardown i => exact hteardowns i
  | closer n => simp only [clientAt, hclosings]

theorem clientAt_begin (name options : String) :
    clientAt { b with calls := b.calls ++ [.begun name options] } = b.clientAt := by
  funext p
  cases p with
  | builder j | displacer j =>
    simp only [clientAt, getElem?_concat]
    split
    . next hj => simp [hj, Call.unplaced?, Call.displaced?]
    . rfl
  | record | teardown | closer => rfl

theorem clientAt_build (i : Nat) (name : String) (target : Target) (client : Connection)
    (hc : b.calls[i]? = some (.constructing name target client)) :
    clientAt { b with calls := b.calls.set i (.built name target client) } =
      Function.update b.clientAt (.builder i) (some client) := by
  funext p
  cases p with
  | builder j | displacer j =>
    by_cases hj : j = i
    . simp [clientAt, getElem?_set_of_getElem? hc, hj, hc, Call.unplaced?, Call.displaced?]
    . simp [clientAt, getElem?_set_of_getElem? hc, hj]
  | record | teardown | closer => simp [clientAt, record?]

theorem clientAt_place (i : Nat) (name : String) (target : Target) (client : Connection)
    (hc : b.calls[i]? = some (.built name target client)) :
    clientAt
      { b with
        calls := b.calls.set i (.done (.client client))
        records := b.records.insert name (Record.make client target.address target.timeout) } =
      Function.update (Function.update b.clientAt (.builder i) none) (.record name)
        (some client) := by
  funext p
  cases p with
  | builder j | displacer j =>
    by_cases hj : j = i
    . simp [clientAt, getElem?_set_of_getElem? hc, hj, hc, Call.unplaced?, Call.displaced?]
    . simp [clientAt, getElem?_set_of_getElem? hc, hj]
  | record other =>
    by_cases ho : other = name
    . simp [clientAt, record?, ho, Record.make]
    . simp [clientAt, record?, Dict.get?_insert, ho]
  | teardown | closer => simp [clientAt]

theorem clientAt_displace (i : Nat) (name : String) (target : Target) (client : Connection)
    (previous : Record Connection) (since : Span)
    (hc : b.calls[i]? = some (.built name target client)) :
    clientAt
      { b with
        calls := b.calls.set i (.displaced name client previous since)
        records := b.records.insert name (Record.make client target.address target.timeout) } =
      Function.update (Function.update
        (Function.update (Function.update b.clientAt (.record name) none) (.displacer i)
          (some previous.client)) (.builder i) none) (.record name) (some client) := by
  -- the record and the call exchange their clients
  funext p
  cases p with
  | builder j | displacer j =>
    by_cases hj : j = i
    . simp [clientAt, getElem?_set_of_getElem? hc, hj, Call.unplaced?, Call.displaced?]
    . simp [clientAt, getElem?_set_of_getElem? hc, hj]
  | record other =>
    by_cases ho : other = name
    . simp [clientAt, record?, ho, Record.make]
    . simp [clientAt, record?, Dict.get?_insert, ho]
  | teardown | closer => simp [clientAt]

theorem clientAt_closeAtOnce (i : Nat) (name : String) (client : Connection)
    (previous : Record Connection) (since : Span)
    (hc : b.calls[i]? = some (.displaced name client previous since)) :
    clientAt
      { b with
        calls := b.calls.set i (.closing name client previous)
        closings := b.closings ++ [⟨b.clock, previous.client⟩] } =
      Function.update (Function.update b.clientAt (.displacer i) none) (.closer b.closings.length)
        (some previous.client) := by
  funext p
  cases p with
  | builder j | displacer j =>
    by_cases hj : j = i
    . simp [clientAt, getElem?_set_of_getElem? hc, hj, hc, Call.unplaced?, Call.displaced?]
    . simp [clientAt, getElem?_set_of_getElem? hc, hj]
  | closer n =>
    by_cases hn : n = b.closings.length
    . simp [clientAt, hn]
    . simp [clientAt, getElem?_concat, hn]
  | record | teardown => simp [clientAt, record?]

theorem clientAt_schedule (i : Nat) (name : String) (client : Connection)
    (previous : Record Connection) (since : Span) (t : Teardown) (registered : List Nat)
    (hc : b.calls[i]? = some (.displaced name client previous since))
    (ht : t.unclosed? = some previous.client) :
    clientAt
      { b with
        calls := b.calls.set i (.done (.client client))
        teardowns := b.teardowns ++ [t]
        registered := registered } =
      Function.update (Function.update b.clientAt (.displacer i) none)
        (.teardown b.teardowns.length) (some previous.client) := by
  -- only the new teardown and the call differ, whatever phase the teardown starts in
  funext p
  cases p with
  | builder j | displacer j =>
    by_cases hj : j = i
    . simp [clientAt, getElem?_set_of_getElem? hc, hj, hc, Call.unplaced?, Call.displaced?]
    . simp [clientAt, getElem?_set_of_getElem? hc, hj]
  | teardown n =>
    by_cases hn : n = b.teardowns.length
    . simp [clientAt, hn, ht]
    . simp [clientAt, getElem?_concat, hn]
  | record | closer => simp [clientAt, record?]

theorem clientAt_wake (i : Nat) (t : Teardown) (ht : b.teardowns[i]? = some t) :
    clientAt
      { b with
        teardowns := b.teardowns.set i { t with phase := .closing }
        closings := b.closings ++ [⟨b.clock, t.previous.client⟩] } =
      Function.update (Function.update b.clientAt (.teardown i) none) (.closer b.closings.length)
        (some t.previous.client) := by
  funext p
  cases p with
  | teardown j =>
    by_cases hj : j = i
    . simp [clientAt, getElem?_set_of_getElem? ht, hj, Teardown.unclosed?]
    . simp [clientAt, getElem?_set_of_getElem? ht, hj]
  | closer n =>
    by_cases hn : n = b.closings.length
    . simp [clientAt, hn]
    . simp [clientAt, getElem?_concat, hn]
  | builder | displacer | record => simp [clientAt, record?]

theorem clientAt_setPhase (i : Nat) (t : Teardown) (p : Phase) (tallies : Tallies)
    (ht : b.teardowns[i]? = some t)
    (hp : Teardown.unclosed? { t with phase := p } = t.unclosed?) :
    clientAt
      { b with
        teardowns := b.teardowns.set i { t with phase := p }
        tallies := tallies } = b.clientAt := by
  apply b.clientAt_eq_of_teardowns
  . rfl
  . rfl
  . intro j
    by_cases hj : j = i
    . simp [getElem?_set_of_getElem? ht, hj, ht, hp]
    . simp [getElem?_set_of_getElem? ht, hj]
  . rfl

theorem clientAt_shutdown : b.shutdown.clientAt = b.clientAt := by
  apply b.clientAt_eq_of_teardowns
  . rfl
  . rfl
  . intro i
    simp only [shutdown, List.getElem?_map]
    cases b.teardowns[i]? with
    | none => rfl
    | some t => simp [Teardown.unclosed?_cancel]
  . rfl

/--
No two clients have the same number, and each carries the name that it was built for.
-/
structure Numbered (b : Buffer) (h : List Mark) : Prop where
  nodup : ((builtClients h).map (·.id)).Nodup
  below : ∀ c ∈ builtClients h, c.id < b.nextId
  fresh : ∀ (i : Nat) name target c, b.calls[i]? = some (.constructing name target c) →
    c.id < b.nextId ∧ c.name = name ∧ ∀ d ∈ builtClients h, d.id ≠ c.id
  apart : ∀ (i j : Nat) name target c name' target' d,
    b.calls[i]? = some (.constructing name target c) →
    b.calls[j]? = some (.constructing name' target' d) → c.id = d.id → i = j
  builtName : ∀ (i : Nat) name target c, b.calls[i]? = some (.built name target c) → c.name = name
  recordName : ∀ name r, b.record? name = some r → r.client.name = name

namespace Numbered

variable {b next : Buffer} {h ms : List Mark}

theorem of_calls (hb : Numbered b h) (hms : builds ms = []) (hid : next.nextId = b.nextId)
    (hcalls : ∀ (i : Nat) c, next.calls[i]? = some c → c.isBusy = true → b.calls[i]? = some c)
    (hrecords : ∀ name r, next.record? name = some r → r.client.name = name) :
    Numbered next (h ++ ms) := by
  have hbuilt : builtClients (h ++ ms) = builtClients h := by
    simp [builtClients_eq_nil ms hms]
  refine ⟨?_, ?_, ?_, ?_, ?_, hrecords⟩
  . rw [hbuilt]
    exact hb.nodup
  . rw [hbuilt, hid]
    exact hb.below
  . intro i name target c hc
    rw [hbuilt, hid]
    exact hb.fresh i name target c (hcalls i _ hc rfl)
  . intro i j name target c name' target' d hc hd
    exact hb.apart i j name target c name' target' d (hcalls i _ hc rfl) (hcalls j _ hd rfl)
  . intro i name target c hc
    exact hb.builtName i name target c (hcalls i _ hc rfl)

theorem of_set (hb : Numbered b h) (hms : builds ms = []) (hid : next.nextId = b.nextId)
    (i : Nat) (c' : Call) (hcalls : next.calls = b.calls.set i c') (hc' : c'.isBusy = false)
    (hrecords : ∀ name r, next.record? name = some r → r.client.name = name) :
    Numbered next (h ++ ms) := by
  refine hb.of_calls hms hid ?_ hrecords
  intro j c hj hbusy
  rw [hcalls] at hj
  rcases origin_of_set hj with ⟨_, rfl⟩ | ⟨_, hj⟩
  . simp [hc'] at hbusy
  . exact hj

theorem of_insert (hb : Numbered b h) (name : String) (r : Record Connection)
    (hr : r.client.name = name) (hrecords : next.records = b.records.insert name r) :
    ∀ other r', next.record? other = some r' → r'.client.name = other := by
  intro other r' hr'
  rw [record?, hrecords, Dict.get?_insert] at hr'
  split at hr'
  . simp_all
  . exact hb.recordName other r' hr'

theorem begin (hb : Numbered b h) (name options : String) :
    Numbered { b with calls := b.calls ++ [.begun name options] } (h ++ []) := by
  refine hb.of_calls rfl rfl ?_ hb.recordName
  intro j c hj hbusy
  rcases origin_of_concat hj with ⟨_, rfl⟩ | ⟨_, hj⟩
  . simp [Call.isBusy] at hbusy
  . exact hj

theorem attempt (hb : Numbered b h) (i : Nat) (name options : String) (target : Target)
    (client : Connection) (tallies : Tallies)
    (hc : b.calls[i]? = some (.resolved name options (some target)))
    (hid : client.id = b.nextId) (hname : client.name = name) :
    Numbered
      { b with
        calls := b.calls.set i (.constructing name target client)
        nextId := b.nextId + 1
        tallies := tallies } (h ++ [.attempted i]) := by
  have hbuilt : builtClients (h ++ [.attempted i]) = builtClients h := by
    simp [builtClients, builds, Mark.build?]
  -- the new client has a number that no client had before
  have hnew : ∀ c ∈ builtClients h, c.id ≠ client.id := by
    intro c hmem
    have := hb.below c hmem
    omega
  refine ⟨?_, ?_, ?_, ?_, ?_, hb.recordName⟩
  . rw [hbuilt]
    exact hb.nodup
  . rw [hbuilt]
    intro c hmem
    exact Nat.lt_succ_of_lt (hb.below c hmem)
  . rw [hbuilt]
    intro j name' target' c hget
    rcases origin_of_set hget with ⟨_, heq⟩ | ⟨_, hget⟩
    . obtain ⟨rfl, rfl, rfl⟩ := Call.constructing.inj heq
      exact ⟨by simp [hid], hname, hnew⟩
    . obtain ⟨hlt, hn, hne⟩ := hb.fresh j name' target' c hget
      exact ⟨Nat.lt_succ_of_lt hlt, hn, hne⟩
  . intro j k name' target' c name'' target'' d hc' hd' hcd
    rcases origin_of_set hc' with ⟨hj, heq⟩ | ⟨_, hcold⟩ <;>
      rcases origin_of_set hd' with ⟨hk, heq'⟩ | ⟨_, hdold⟩
    . rw [hj, hk]
    . obtain ⟨_, _, rfl⟩ := Call.constructing.inj heq
      have := (hb.fresh k name'' target'' d hdold).1
      omega
    . obtain ⟨_, _, rfl⟩ := Call.constructing.inj heq'
      have := (hb.fresh j name' target' c hcold).1
      omega
    . exact hb.apart j k _ _ _ _ _ _ hcold hdold hcd
  . intro j name' target' c hget
    rcases origin_of_set hget with ⟨_, heq⟩ | ⟨_, hget⟩
    . cases heq
    . exact hb.builtName j name' target' c hget

theorem build (hb : Numbered b h) (i : Nat) (name : String) (target : Target)
    (client : Connection) (hc : b.calls[i]? = some (.constructing name target client)) :
    Numbered { b with calls := b.calls.set i (.built name target client) }
      (h ++ [.built i target client]) := by
  have hbuilt : builtClients (h ++ [.built i target client]) = builtClients h ++ [client] := by
    simp [builtClients, builds, Mark.build?]
  obtain ⟨hlt, hname, hne⟩ := hb.fresh i name target client hc
  have hconstructing : ∀ (j : Nat) name' target' c,
      (b.calls.set i (.built name target client))[j]? = some (.constructing name' target' c) →
      j ≠ i ∧ b.calls[j]? = some (.constructing name' target' c) := by
    intro j name' target' c hget
    rcases origin_of_set hget with ⟨_, heq⟩ | hget
    . cases heq
    . exact hget
  refine ⟨?_, ?_, ?_, ?_, ?_, hb.recordName⟩
  . rw [hbuilt, List.map_append, List.nodup_append]
    refine ⟨hb.nodup, by simp, ?_⟩
    intro n hn m hm
    obtain ⟨d, hd, rfl⟩ := List.mem_map.1 hn
    simp only [List.map_cons, List.map_nil, List.mem_singleton] at hm
    rw [hm]
    exact hne d hd
  . rw [hbuilt]
    intro c hmem
    rcases List.mem_append.1 hmem with hmem | hmem
    . exact hb.below c hmem
    . rw [List.mem_singleton.1 hmem]
      exact hlt
  . rw [hbuilt]
    intro j name' target' c hget
    obtain ⟨hj, hget⟩ := hconstructing j name' target' c hget
    obtain ⟨hlt', hn, hne'⟩ := hb.fresh j name' target' c hget
    refine ⟨hlt', hn, ?_⟩
    intro d hd
    rcases List.mem_append.1 hd with hd | hd
    . exact hne' d hd
    . rw [List.mem_singleton.1 hd]
      intro hid
      exact hj (hb.apart j i _ _ _ _ _ _ hget hc hid.symm)
  . intro j k name' target' c name'' target'' d hj hk
    exact hb.apart j k _ _ _ _ _ _ (hconstructing j _ _ _ hj).2 (hconstructing k _ _ _ hk).2
  . intro j name' target' c hget
    rcases origin_of_set hget with ⟨_, heq⟩ | ⟨_, hget⟩
    . obtain ⟨rfl, _, rfl⟩ := Call.built.inj heq
      exact hname
    . exact hb.builtName j name' target' c hget

theorem start (runtime : Runtime) : Numbered (Buffer.start runtime) [] := by
  constructor <;> simp [Buffer.start, builtClients, record?]

theorem step (hb : Numbered b h) {a : Action} (he : b.Effect a next ms) :
    Numbered next (h ++ ms) := by
  cases he with
  | begin name options => exact hb.begin name options
  | resolve | serve | refuse | reuse | fail | closeAtOnce | schedule | endCloseNow =>
    exact hb.of_set rfl rfl _ _ rfl rfl hb.recordName
  | attempt i name options target client hc hr hid hname =>
    exact hb.attempt i name options target client _ hc hid hname
  | build i name target client hc => exact hb.build i name target client hc
  | place i name target client hc =>
    have hname := hb.builtName i name target client hc
    exact hb.of_set rfl rfl _ _ rfl rfl (hb.of_insert name _ hname rfl)
  | displace i name target client previous hc =>
    have hname := hb.builtName i name target client hc
    exact hb.of_set rfl rfl _ _ rfl rfl (hb.of_insert name _ hname rfl)
  | drain | redrain =>
    refine hb.of_calls ?_ rfl (fun _ _ hc _ => hc) hb.recordName
    split <;> rfl
  | _ => exact hb.of_calls rfl rfl (fun _ _ hc _ => hc) hb.recordName

end Numbered

/--
Clients are numbered and conserved, and what a teardown no longer holds was handed to a closer.
-/
structure Sound (b : Buffer) (h : List Mark) : Prop where
  numbered : Numbered b h
  conserved : Conserved b.clientAt (builtClients h) (displacedClients h)
  handed : ∀ t ∈ b.teardowns, t.unclosed? = none →
    ∃ n, b.clientAt (.closer n) = some t.previous.client

namespace Sound

variable {b next : Buffer} {h ms : List Mark}

theorem start (runtime : Runtime) : Sound (Buffer.start runtime) [] := by
  refine ⟨Numbered.start runtime, ?_, ?_⟩
  . have hnone : ∀ p, (Buffer.start runtime).clientAt p = none := by
      intro p
      cases p <;> simp [Buffer.start, clientAt, record?]
    constructor <;> simp [hnone, builtClients, displacedClients]
  . simp [Buffer.start]

theorem conserved_build (hb : Sound b h) (i : Nat) (name : String) (target : Target)
    (client : Connection) (hc : b.calls[i]? = some (.constructing name target client)) :
    Conserved (clientAt { b with calls := b.calls.set i (.built name target client) })
      (builtClients (h ++ [.built i target client]))
      (displacedClients (h ++ [.built i target client])) := by
  have hnew : client ∉ builtClients h := by
    intro hmem
    exact (hb.numbered.fresh i name target client hc).2.2 client hmem rfl
  have hfree : b.clientAt (.builder i) = none := by simp [clientAt, hc, Call.unplaced?]
  have hgone : displacedClients (h ++ [.built i target client]) = displacedClients h := by
    rw [displacedClients_append, show displacedClients [.built i target client] = [] from rfl,
      List.append_nil]
  rw [b.clientAt_build i name target client hc, builtClients_append, hgone]
  exact hb.conserved.add (.builder i) hfree hnew

theorem conserved_place (hb : Sound b h) (i : Nat) (name : String) (target : Target)
    (client : Connection) (hc : b.calls[i]? = some (.built name target client))
    (hr : b.record? name = none) :
    Conserved
      (clientAt
        { b with
          calls := b.calls.set i (.done (.client client))
          records := b.records.insert name (Record.make client target.address target.timeout) })
      (builtClients h) (displacedClients h) := by
  rw [b.clientAt_place i name target client hc]
  refine hb.conserved.move (.builder i) (.record name) ?_ ?_ (by simp [Place.isOutside])
  . simp [clientAt, hc, Call.unplaced?]
  . simp [clientAt, hr]

theorem conserved_displace (hb : Sound b h) (i : Nat) (name : String) (target : Target)
    (client : Connection) (previous : Record Connection)
    (hc : b.calls[i]? = some (.built name target client))
    (hr : b.record? name = some previous) :
    Conserved
      (clientAt
        { b with
          calls := b.calls.set i (.displaced name client previous b.clock)
          records := b.records.insert name (Record.make client target.address target.timeout) })
      (builtClients h) (displacedClients h ++ [previous.client]) := by
  rw [b.clientAt_displace i name target client previous b.clock hc]
  have hout : Conserved (Function.update (Function.update b.clientAt (.record name) none)
      (.displacer i) (some previous.client)) (builtClients h) (displacedClients h) := by
    refine hb.conserved.move (.record name) (.displacer i) ?_ ?_ (by simp [Place.isOutside])
    . simp [clientAt, hr]
    . simp [clientAt, hc, Call.displaced?]
  have hgone := hout.goes (.displacer i) (Function.update_self _ _ _) rfl
  refine hgone.move (.builder i) (.record name) ?_ ?_ (by simp [Place.isOutside])
  . simp [clientAt, hc, Call.unplaced?]
  . simp

theorem clientAt_length (b : Buffer) :
    b.clientAt (.closer b.closings.length) = none ∧
      b.clientAt (.teardown b.teardowns.length) = none := by
  simp [clientAt]

theorem conserved_step (hb : Sound b h) {a : Action} (he : b.Effect a next ms) :
    Conserved next.clientAt (builtClients (h ++ ms)) (displacedClients (h ++ ms)) := by
  -- most marks tell of no client that was built or taken out
  have hquiet : builds ms = [] → displacedClients ms = [] →
      Conserved b.clientAt (builtClients (h ++ ms)) (displacedClients (h ++ ms)) := by
    intro hbuilt hgone
    simpa [builtClients_eq_nil ms hbuilt, hgone] using hb.conserved
  have hset : ∀ {i : Nat} {c c' : Call}, b.calls[i]? = some c → next.calls = b.calls.set i c' →
      c'.unplaced? = c.unplaced? → c'.displaced? = c.displaced? →
      next.records = b.records → next.teardowns = b.teardowns → next.closings = b.closings →
      builds ms = [] → displacedClients ms = [] →
      Conserved next.clientAt (builtClients (h ++ ms)) (displacedClients (h ++ ms)) := by
    intro i c c' hc hcalls hu hd hrecords hteardowns hclosings hbuilt hgone
    rw [b.clientAt_eq_of_set hc hcalls hu hd hrecords hteardowns hclosings]
    exact hquiet hbuilt hgone
  cases he with
  | begin name options =>
    rw [clientAt_begin]
    exact hquiet rfl rfl
  | resolve _ _ _ hc | serve _ _ _ _ hc | refuse _ _ _ hc | reuse _ _ _ _ _ hc
  | attempt _ _ _ _ _ hc | fail _ _ _ _ _ _ hc | endCloseNow _ _ _ _ _ hc =>
    exact hset hc rfl rfl rfl rfl rfl rfl rfl rfl
  | build i name target client hc => exact hb.conserved_build i name target client hc
  | place i name target client hc hr =>
    simpa using hb.conserved_place i name target client hc hr
  | displace i name target client previous hc hr =>
    rw [builtClients_append, displacedClients_append,
      builtClients_eq_nil [.displaced previous.client b.clock] rfl, List.append_nil]
    exact hb.conserved_displace i name target client previous hc hr
  | closeAtOnce i name client previous since hc =>
    rw [b.clientAt_closeAtOnce i name client previous since hc]
    refine Conserved.move (hquiet rfl rfl) _ _ ?_ (clientAt_length b).1 (fun _ => rfl)
    simp [clientAt, hc, Call.displaced?]
  | schedule i name client previous since hc =>
    rw [b.clientAt_schedule i name client previous since _ _ hc]
    . refine Conserved.move (hquiet rfl rfl) _ _ ?_ (clientAt_length b).2 (fun _ => rfl)
      simp [clientAt, hc, Call.displaced?]
    . cases hrun : b.runtime.isRunning <;> simp [Teardown.unclosed?]
  | sleep i t ht hp =>
    rw [b.clientAt_setPhase i t _ b.tallies ht (by simp [Teardown.unclosed?, hp])]
    exact hquiet rfl rfl
  | wake i t ht hp =>
    rw [b.clientAt_wake i t ht]
    refine Conserved.move (hquiet rfl rfl) _ _ ?_ (clientAt_length b).1 (fun _ => rfl)
    rcases hp with ⟨hp, _⟩ | ⟨due, hp, _⟩ <;> simp [clientAt, ht, Teardown.unclosed?, hp]
  | endCloseLater i t o ht hp =>
    rw [b.clientAt_setPhase i t _ _ ht (by simp [Teardown.unclosed?, hp])]
    exact hquiet rfl rfl
  | shutdown =>
    rw [clientAt_shutdown]
    exact hquiet rfl rfl
  | drain | redrain => exact hquiet (by split <;> rfl) (by split <;> rfl)
  | _ => exact hquiet rfl rfl

theorem handed_of_prefix (hb : Sound b h) (hx : b.closings <+: next.closings)
    (ht : ∀ t ∈ next.teardowns, t.unclosed? = none →
      (∃ n, next.clientAt (.closer n) = some t.previous.client) ∨
        ∃ u ∈ b.teardowns, u.unclosed? = none ∧ u.previous = t.previous) :
    ∀ t ∈ next.teardowns, t.unclosed? = none →
      ∃ n, next.clientAt (.closer n) = some t.previous.client := by
  intro t hmem hnone
  rcases ht t hmem hnone with hnew | ⟨u, hu, hunone, hprev⟩
  . exact hnew
  . obtain ⟨n, hn⟩ := hb.handed u hu hunone
    obtain ⟨x, hget, hclient⟩ := Option.map_eq_some_iff.1 hn
    refine ⟨n, ?_⟩
    obtain ⟨hlt, rfl⟩ := List.getElem?_eq_some_iff.1 hget
    have hlt' := Nat.lt_of_lt_of_le hlt hx.length_le
    rw [clientAt, ← hprev, ← hclient, List.getElem?_eq_getElem hlt', ← hx.getElem hlt]
    rfl

theorem handed_step (hb : Sound b h) {a : Action} (he : b.Effect a next ms) :
    ∀ t ∈ next.teardowns, t.unclosed? = none →
      ∃ n, next.clientAt (.closer n) = some t.previous.client := by
  cases he with
  | closeAtOnce =>
    refine hb.handed_of_prefix (by simp) ?_
    intro t ht hnone
    exact Or.inr ⟨t, ht, hnone, rfl⟩
  | schedule =>
    refine hb.handed_of_prefix (by simp) ?_
    intro t ht hnone
    rcases List.mem_append.1 ht with ht | ht
    . exact Or.inr ⟨t, ht, hnone, rfl⟩
    . rw [List.mem_singleton.1 ht] at hnone
      cases hrun : b.runtime.isRunning <;> simp [Teardown.unclosed?, hrun] at hnone
  | sleep =>
    refine hb.handed_of_prefix (by simp) ?_
    intro u hu hnone
    rcases List.mem_or_eq_of_mem_set hu with hu | rfl
    . exact Or.inr ⟨u, hu, hnone, rfl⟩
    . simp [Teardown.unclosed?] at hnone
  | wake i t ht =>
    refine hb.handed_of_prefix (by simp) ?_
    intro u hu hnone
    rcases List.mem_or_eq_of_mem_set hu with hu | rfl
    . exact Or.inr ⟨u, hu, hnone, rfl⟩
    . exact Or.inl ⟨b.closings.length, by simp [clientAt]⟩
  | endCloseLater i t o ht hp =>
    refine hb.handed_of_prefix (by simp) ?_
    intro u hu hnone
    rcases List.mem_or_eq_of_mem_set hu with hu | rfl
    . exact Or.inr ⟨u, hu, hnone, rfl⟩
    . exact Or.inr ⟨t, List.mem_of_getElem? ht, by simp [Teardown.unclosed?, hp], rfl⟩
  | shutdown =>
    refine hb.handed_of_prefix (List.prefix_refl b.closings) ?_
    intro u hu hnone
    obtain ⟨t, ht, rfl⟩ := List.mem_map.1 hu
    rw [t.unclosed?_cancel] at hnone
    exact Or.inr ⟨t, ht, hnone, t.previous_cancel.symm⟩
  | _ =>
    refine hb.handed_of_prefix (List.prefix_refl b.closings) ?_
    intro t ht hnone
    exact Or.inr ⟨t, ht, hnone, rfl⟩

theorem step (hb : Sound b h) {a : Action} (he : b.Effect a next ms) : Sound next (h ++ ms) :=
  ⟨hb.numbered.step he, hb.conserved_step he, hb.handed_step he⟩

theorem of_run (runtime : Runtime) (as : List Action) :
    Sound ((Buffer.start runtime).run as) ((Buffer.start runtime).history as) :=
  effect_invariant Sound (fun _ _ _ _ _ he hb => hb.step he) as _ (start runtime)

theorem nodup_closings (hb : Sound b h) : (b.closings.map (·.client)).Nodup := by
  rw [List.nodup_iff_getElem?_ne_getElem?]
  intro i j hij hj heq
  have hget : ∀ n, b.clientAt (.closer n) = (b.closings.map (·.client))[n]? := by
    intro n
    simp [clientAt]
  obtain ⟨c, hc⟩ : ∃ c, (b.closings.map (·.client))[j]? = some c :=
    ⟨_, List.getElem?_eq_getElem hj⟩
  have hplace := hb.conserved.unique (.closer i) (.closer j) c
    ((hget i).trans (heq.trans hc)) ((hget j).trans hc)
  exact absurd (Place.closer.inj hplace) (Nat.ne_of_lt hij)

theorem closer_of_mem (hx : x ∈ b.closings) : ∃ n, b.clientAt (.closer n) = some x.client := by
  obtain ⟨n, hn⟩ := List.mem_iff_getElem?.1 hx
  exact ⟨n, by simp [clientAt, hn]⟩

theorem outside_of_mem_teardowns (hb : Sound b h) {t : Teardown} (ht : t ∈ b.teardowns) :
    ∃ p, p.isOutside = true ∧ b.clientAt p = some t.previous.client := by
  cases hu : t.unclosed? with
  | none =>
    obtain ⟨n, hn⟩ := hb.handed t ht hu
    exact ⟨.closer n, rfl, hn⟩
  | some c =>
    obtain ⟨i, hi⟩ := List.mem_iff_getElem?.1 ht
    have hc : t.unclosed? = some t.previous.client := by
      unfold Teardown.unclosed? at hu ⊢
      split at hu <;> simp_all
    exact ⟨.teardown i, rfl, by simp [clientAt, hi, hc]⟩

theorem not_record_of_outside (hb : Sound b h) {p : Place} {name : String} {c : Connection}
    (hp : b.clientAt p = some c) (hout : p.isOutside = true) :
    b.clientAt (.record name) ≠ some c := by
  intro hr
  have hpr := hb.conserved.unique p (.record name) c hp hr
  simp [hpr, Place.isOutside] at hout

end Sound

theorem phase_ne_cancelled (runtime : Runtime) (as : List Action) (hruntime : runtime ≠ .stopped)
    (has : .shutdown ∉ as) :
    ∀ t ∈ ((Buffer.start runtime).run as).teardowns, t.phase ≠ .cancelled := by
  have hinv := run_invariant (fun _ a => a ≠ .shutdown)
    (fun b _ => b.runtime ≠ .stopped ∧ ∀ t ∈ b.teardowns, t.phase ≠ .cancelled) ?_ as
    (Buffer.start runtime) [] ⟨hruntime, by simp [Buffer.start]⟩
    (obeys_of_forall_mem _ _ as fun a ha b heq => has (heq ▸ ha))
  . exact hinv.2
  . intro b h a next ms hne he ⟨hrun, hb⟩
    cases he with
    | schedule i name client previous since hc ha =>
      refine ⟨hrun, ?_⟩
      intro t ht
      rcases List.mem_append.1 ht with ht | ht
      . exact hb t ht
      . rw [List.mem_singleton.1 ht]
        cases hr : b.runtime <;> simp_all [Runtime.isRunning]
    | sleep | wake | endCloseLater =>
      refine ⟨hrun, ?_⟩
      intro t ht
      rcases List.mem_or_eq_of_mem_set ht with ht | rfl
      . exact hb t ht
      . simp
    | enter | leave =>
      refine ⟨?_, hb⟩
      cases hr : b.runtime <;> simp_all [Runtime.enter, Runtime.leave]
    | shutdown => exact absurd rfl hne
    | _ => exact ⟨hrun, hb⟩

/--
However calls overlap, each client that was built is in exactly one place: with its builder, in
the record of its own name, with the call that has taken it out, with one teardown, or handed to a
closer once. What was taken out is never in a record again and never lost, since no teardown is
cancelled unless the runtime is shut down.
-/
theorem built_client_in_exactly_one_place (runtime : Runtime) (as : List Action) :
    let b := (Buffer.start runtime).run as
    let h := (Buffer.start runtime).history as
    ((builtClients h).map (·.id)).Nodup ∧
    (∀ c ∈ builtClients h, ∃! p, b.clientAt p = some c) ∧
    (∀ p c, b.clientAt p = some c → c ∈ builtClients h) ∧
    (∀ name c, b.clientAt (.record name) = some c → c.name = name) ∧
    (b.closings.map (·.client)).Nodup ∧
    (∀ name c, b.clientAt (.record name) = some c →
      (∀ t ∈ b.teardowns, t.previous.client ≠ c) ∧ ∀ x ∈ b.closings, x.client ≠ c) ∧
    (∀ c ∈ displacedClients h, ∃ p, b.clientAt p = some c ∧ p.isOutside = true) ∧
    (runtime ≠ .stopped → .shutdown ∉ as → ∀ t ∈ b.teardowns, t.phase ≠ .cancelled) := by
  intro b h
  have hb : Sound b h := Sound.of_run runtime as
  refine ⟨hb.numbered.nodup, ?_, hb.conserved.sound, ?_, hb.nodup_closings, ?_,
    hb.conserved.outside, phase_ne_cancelled runtime as⟩
  . intro c hc
    obtain ⟨p, hp⟩ := hb.conserved.complete c hc
    exact ⟨p, hp, fun q hq => hb.conserved.unique q p c hq hp⟩
  . intro name c hc
    obtain ⟨r, hr, rfl⟩ := Option.map_eq_some_iff.1 hc
    exact hb.numbered.recordName name r hr
  . intro name c hc
    constructor
    . intro t ht heq
      obtain ⟨p, hout, hp⟩ := hb.outside_of_mem_teardowns ht
      exact hb.not_record_of_outside hp hout (heq ▸ hc)
    . intro x hx heq
      obtain ⟨n, hn⟩ := Sound.closer_of_mem hx
      exact hb.not_record_of_outside hn rfl (heq ▸ hc)

/--
Two calls for one name find no record, and both build a client. The second one is the first to put
its client into the buffer, and the other one takes it out again.
-/
def race : List Action :=
  [.edit (TargetTable.empty.upsert "db" ⟨"a", .ofSeconds 1⟩), .begin "db" "", .begin "db" "",
   .proceed 0, .proceed 1, .proceed 0, .proceed 1, .construct 0 .built, .construct 1 .built,
   .proceed 1, .proceed 0, .proceed 0]

theorem race_leaves_each_client_in_one_place :
    let b := (Buffer.start .around).run race
    (∃! p, b.clientAt p = some ⟨0, "db", "a", ""⟩) ∧
    b.clientAt (.record "db") = some ⟨0, "db", "a", ""⟩ ∧
    (∀ t ∈ b.teardowns, t.previous.client ≠ ⟨0, "db", "a", ""⟩) ∧
    (∃! p, b.clientAt p = some ⟨1, "db", "a", ""⟩) ∧
    b.clientAt (.teardown 0) = some ⟨1, "db", "a", ""⟩ ∧
    ∀ t ∈ b.teardowns, t.phase ≠ .cancelled := by
  intro b
  obtain ⟨_, hone, _, _, _, hkept, _, halive⟩ := built_client_in_exactly_one_place .around race
  have hrecord : b.clientAt (.record "db") = some ⟨0, "db", "a", ""⟩ := by decide +kernel
  exact ⟨hone _ (by decide +kernel), hrecord, (hkept _ _ hrecord).1, hone _ (by decide +kernel),
    by decide +kernel, halive (by decide) (by simp [race])⟩

end Buffer

end Upkeep.Client
