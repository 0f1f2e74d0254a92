import Upkeep.Proofs.Client.History

/-!
This module contains what the history of a buffer says of each call: what the call found in the
table, whether it ran the constructor, and what the constructor gave it.
-/

namespace Upkeep.Client

open Config

def Mark.call? : Mark → Option Nat
  | .resolved i .. | .attempted i | .built i .. => some i
  | .displaced .. | .drained _ => none

/--
Whether a mark tells of a call that has already looked for its target, or of no call.
-/
def Mark.Follows (i : Nat) (m : Mark) : Prop :=
  m.call? = none ∨ m = .attempted i ∨ ∃ target client, m = .built i target client

theorem Mark.Follows.call_eq {i j : Nat} {m : Mark} (hm : m.Follows i) (hj : m.call? = some j) :
    j = i := by
  rcases hm with hnone | rfl | ⟨target, client, rfl⟩
  . simp [hnone] at hj
  . exact (Option.some.inj hj).symm
  . exact (Option.some.inj hj).symm

theorem mem_of_follows {h ms : List Mark} {i : Nat} {name : String} {seen : Option Target}
    (hms : ∀ m ∈ ms, m.Follows i) (hm : .resolved i name seen ∈ h ++ ms) :
    .resolved i name seen ∈ h := by
  rcases List.mem_append.1 hm with hm | hm
  . exact hm
  . rcases hms _ hm with hnone | heq | ⟨target, client, heq⟩
    . simp [Mark.call?] at hnone
    . simp at heq
    . simp at heq

def Mark.buildOf? (i : Nat) : Mark → Option (Target × Connection)
  | .built j target client => if j = i then some (target, client) else none
  | _ => none

def buildsOf (h : List Mark) (i : Nat) : List (Target × Connection) :=
  h.filterMap (Mark.buildOf? i)

@[simp]
theorem buildsOf_append (h ms : List Mark) (i : Nat) :
    buildsOf (h ++ ms) i = buildsOf h i ++ buildsOf ms i := by
  simp [buildsOf]

@[simp]
theorem buildsOf_built (i : Nat) (target : Target) (client : Connection) :
    buildsOf [.built i target client] i = [(target, client)] := by
  simp [buildsOf, Mark.buildOf?]

theorem mem_buildsOf (h : List Mark) (i : Nat) (target : Target) (client : Connection) :
    (target, client) ∈ buildsOf h i ↔ .built i target client ∈ h := by
  simp only [buildsOf, List.mem_filterMap]
  constructor
  . rintro ⟨m, hm, hbuild⟩
    cases m with
    | built j target' client' =>
      simp only [Mark.buildOf?, Option.ite_none_right_eq_some, Option.some.injEq,
        Prod.mk.injEq] at hbuild
      obtain ⟨rfl, rfl, rfl⟩ := hbuild
      exact hm
    | resolved | attempted | displaced | drained => simp [Mark.buildOf?] at hbuild
  . intro hm
    exact ⟨_, hm, by simp [Mark.buildOf?]⟩

theorem buildsOf_of_ne_built (ms : List Mark) (i : Nat)
    (hms : ∀ m ∈ ms, ∀ target client, m ≠ .built i target client) : buildsOf ms i = [] := by
  rw [List.eq_nil_iff_forall_not_mem]
  rintro ⟨target, client⟩ hbuild
  exact hms _ ((mem_buildsOf ms i target client).1 hbuild) target client rfl

theorem buildsOf_eq_nil (ms : List Mark) (i : Nat) (hms : ∀ m ∈ ms, m.call? ≠ some i) :
    buildsOf ms i = [] := by
  apply buildsOf_of_ne_built
  intro m hm target client heq
  exact hms m hm (by rw [heq]; rfl)

namespace Call

def isNew : Call → Bool
  | .begun .. => true
  | _ => false

/--
What the history says of a call that has found `seen` for a name, by the phase of the call.
-/
def Recounts (h : List Mark) (i : Nat) (name : String) (seen : Option Target) : Call → Prop
  | .begun .. => False
  | .resolved n _ wanted =>
    n = name ∧ seen.filter Target.isConfigured = wanted ∧ .attempted i ∉ h ∧ buildsOf h i = []
  | .constructing n target client =>
    n = name ∧ client.name = name ∧ seen.filter Target.isConfigured = some target ∧
      .attempted i ∈ h ∧ buildsOf h i = []
  | .built n target client =>
    n = name ∧ client.name = name ∧ seen.filter Target.isConfigured = some target ∧
      .attempted i ∈ h ∧ buildsOf h i = [(target, client)]
  | .displaced n client _ _ | .closing n client _ =>
    n = name ∧ client.name = name ∧ ∃ target, seen.filter Target.isConfigured = some target ∧
      .attempted i ∈ h ∧ buildsOf h i = [(target, client)]
  | .done r =>
    (.attempted i ∉ h ∧ buildsOf h i = []) ∨
    (∃ target, seen.filter Target.isConfigured = some target ∧ .attempted i ∈ h ∧
      ((∃ client, r = .client client ∧ client.name = name ∧ buildsOf h i = [(target, client)]) ∨
        ((∀ client, r ≠ .client client) ∧ buildsOf h i = [])))

theorem recounts_append (c : Call) (h ms : List Mark) (i : Nat) (name : String)
    (seen : Option Target) (hms : ∀ m ∈ ms, m.call? ≠ some i) :
    c.Recounts (h ++ ms) i name seen ↔ c.Recounts h i name seen := by
  have hattempted : .attempted i ∈ h ++ ms ↔ .attempted i ∈ h := by
    simp only [List.mem_append, or_iff_left_iff_imp]
    exact fun hm => absurd rfl (hms _ hm)
  have hbuilds : buildsOf (h ++ ms) i = buildsOf h i := by
    simp [buildsOf_eq_nil ms i hms]
  cases c <;> simp only [Recounts, hattempted, hbuilds]

theorem seen_of_recounts {c : Call} {h : List Mark} {i : Nat} {name : String}
    {seen : Option Target} {target : Target} {client : Connection} (hc : c.Recounts h i name seen)
    (hmem : (target, client) ∈ buildsOf h i) : seen = some target ∧ client.name = name := by
  have hsome : ∀ {wanted}, seen.filter Target.isConfigured = some wanted → seen = some wanted :=
    fun hseen => (Option.filter_eq_some_iff.1 hseen).1
  cases c with
  | begun => exact hc.elim
  | resolved =>
    obtain ⟨_, _, _, hnil⟩ := hc
    simp [hnil] at hmem
  | constructing =>
    obtain ⟨_, _, _, _, hnil⟩ := hc
    simp [hnil] at hmem
  | built =>
    obtain ⟨_, hname, hseen, _, hone⟩ := hc
    rw [hone, List.mem_singleton, Prod.mk.injEq] at hmem
    obtain ⟨rfl, rfl⟩ := hmem
    exact ⟨hsome hseen, hname⟩
  | displaced | closing =>
    obtain ⟨_, hname, wanted, hseen, _, hone⟩ := hc
    rw [hone, List.mem_singleton, Prod.mk.injEq] at hmem
    obtain ⟨rfl, rfl⟩ := hmem
    exact ⟨hsome hseen, hname⟩
  | done =>
    rcases hc with ⟨_, hnil⟩ | ⟨wanted, hseen, _, ⟨d, _, hname, hone⟩ | ⟨_, hnil⟩⟩
    . simp [hnil] at hmem
    . rw [hone, List.mem_singleton, Prod.mk.injEq] at hmem
      obtain ⟨rfl, rfl⟩ := hmem
      exact ⟨hsome hseen, hname⟩
    . simp [hnil] at hmem

end Call

namespace Buffer

/--
The history tells the story of each call.
-/
structure Recounted (b : Buffer) (h : List Mark) : Prop where
  known : ∀ m ∈ h, ∀ i, m.call? = some i → ∃ c, b.calls[i]? = some c ∧ c.isNew = false
  looked : ∀ (i : Nat) c, b.calls[i]? = some c → c.isNew = false →
    ∃ name seen, .resolved i name seen ∈ h
  recounts : ∀ (i : Nat) c name seen, b.calls[i]? = some c → .resolved i name seen ∈ h →
    c.Recounts h i name seen

namespace Recounted

variable {b next : Buffer} {h ms : List Mark}

theorem start (runtime : Runtime) : Recounted (Buffer.start runtime) [] := by
  constructor <;> simp [Buffer.start]

theorem still (hb : Recounted b h) (hcalls : next.calls = b.calls)
    (hms : ∀ m ∈ ms, m.call? = none) : Recounted next (h ++ ms) := by
  refine ⟨?_, ?_, ?_⟩
  . intro m hm i hi
    rw [hcalls]
    rcases List.mem_append.1 hm with hm | hm
    . exact hb.known m hm i hi
    . simp [hms m hm] at hi
  . intro i c hc hnew
    obtain ⟨name, seen, hm⟩ := hb.looked i c (hcalls ▸ hc) hnew
    exact ⟨name, seen, List.mem_append_left _ hm⟩
  . intro i c name seen hc hm
    rw [Call.recounts_append _ _ _ _ _ _ fun m hm => by simp [hms m hm]]
    rcases List.mem_append.1 hm with hm | hm
    . exact hb.recounts i c name seen (hcalls ▸ hc) hm
    . exact absurd (hms _ hm) (by simp [Mark.call?])

theorem begin (hb : Recounted b h) (name options : String) :
    Recounted { b with calls := b.calls ++ [.begun name options] } (h ++ []) := by
  rw [List.append_nil]
  refine ⟨?_, ?_, ?_⟩
  . intro m hm i hi
    obtain ⟨c, hc, hnew⟩ := hb.known m hm i hi
    obtain ⟨hlt, _⟩ := List.getElem?_eq_some_iff.1 hc
    exact ⟨c, by rwa [List.getElem?_append_left hlt], hnew⟩
  . intro i c hc hnew
    rcases origin_of_concat hc with ⟨_, rfl⟩ | ⟨_, hc⟩
    . simp [Call.isNew] at hnew
    . exact hb.looked i c hc hnew
  . intro i c n seen hc hm
    rcases origin_of_concat hc with ⟨rfl, rfl⟩ | ⟨_, hc⟩
    . obtain ⟨c, hc, _⟩ := hb.known _ hm _ rfl
      simp at hc
    . exact hb.recounts i c n seen hc hm

theorem act (hb : Recounted b h) {i : Nat} {c c' : Call} (hc : b.calls[i]? = some c)
    (hcalls : next.calls = b.calls.set i c') (hnew : c'.isNew = false)
    (hms : ∀ m ∈ ms, ∀ j, m.call? = some j → j = i)
    (hlook : ∃ name seen, .resolved i name seen ∈ h ++ ms)
    (hrecounts : ∀ name seen, .resolved i name seen ∈ h ++ ms →
      c'.Recounts (h ++ ms) i name seen) : Recounted next (h ++ ms) := by
  -- marks of this step are about `i` alone, so that the stories of other calls stay as they are
  refine ⟨?_, ?_, ?_⟩
  . intro m hm j hj
    rw [hcalls, getElem?_set_of_getElem? hc]
    by_cases hji : j = i
    . exact ⟨c', if_pos hji, hnew⟩
    . rw [if_neg hji]
      rcases List.mem_append.1 hm with hm | hm
      . exact hb.known m hm j hj
      . exact absurd (hms m hm j hj) hji
  . intro j d hd hdnew
    rw [hcalls] at hd
    rcases origin_of_set hd with ⟨rfl, _⟩ | ⟨_, hd⟩
    . exact hlook
    . obtain ⟨name, seen, hm⟩ := hb.looked j d hd hdnew
      exact ⟨name, seen, List.mem_append_left _ hm⟩
  . intro j d name seen hd hm
    rw [hcalls] at hd
    rcases origin_of_set hd with ⟨rfl, rfl⟩ | ⟨hji, hd⟩
    . exact hrecounts name seen hm
    . rw [Call.recounts_append _ _ _ _ _ _ fun m hm hmj => hji (hms m hm j hmj)]
      rcases List.mem_append.1 hm with hm | hm
      . exact hb.recounts j d name seen hd hm
      . exact absurd (hms _ hm j rfl) hji

theorem act_of_looked (hb : Recounted b h) {i : Nat} {c c' : Call} (hc : b.calls[i]? = some c)
    (hcalls : next.calls = b.calls.set i c') (hnew : c.isNew = false) (hnew' : c'.isNew = false)
    (hms : ∀ m ∈ ms, m.Follows i)
    (hrecounts : ∀ name seen, c.Recounts h i name seen → c'.Recounts (h ++ ms) i name seen) :
    Recounted next (h ++ ms) := by
  refine hb.act hc hcalls hnew' (fun m hm j hj => (hms m hm).call_eq hj) ?_ ?_
  . obtain ⟨name, seen, hm⟩ := hb.looked i c hc hnew
    exact ⟨name, seen, List.mem_append_left _ hm⟩
  . intro name seen hm
    exact hrecounts name seen (hb.recounts i c name seen hc (mem_of_follows hms hm))

theorem not_mentioned_of_new (hb : Recounted b h) {i : Nat} {c : Call} (hc : b.calls[i]? = some c)
    (hnew : c.isNew = true) : ∀ m ∈ h, m.call? ≠ some i := by
  intro m hm hmi
  obtain ⟨d, hd, hold⟩ := hb.known m hm i hmi
  rw [hc, Option.some.injEq] at hd
  simp [← hd, hnew] at hold

theorem step (hb : Recounted b h) {a : Action} (he : b.Effect a next ms) :
    Recounted next (h ++ ms) := by
  cases he with
  | begin name options => exact hb.begin name options
  | resolve i name options hc =>
    have hnone := hb.not_mentioned_of_new hc rfl
    refine hb.act hc rfl rfl ?_ ⟨name, b.table.get? name, by simp⟩ ?_
    . intro m hm j hj
      rw [List.mem_singleton.1 hm] at hj
      exact (Option.some.inj hj).symm
    . intro n seen hm
      have hattempted : .attempted i ∉ h := fun hm => hnone _ hm rfl
      have hbuilds := buildsOf_eq_nil h i hnone
      rcases List.mem_append.1 hm with hm | hm
      . exact absurd rfl (hnone _ hm)
      . obtain ⟨_, rfl, rfl⟩ := Mark.resolved.inj (List.mem_singleton.1 hm)
        have hresolved := buildsOf_of_ne_built [.resolved i n (b.table.get? n)] i (by simp)
        simp [Call.Recounts, hattempted, hbuilds, hresolved]
  | serve i name options r hc | refuse i name options hc | reuse i name options target r hc =>
    refine hb.act_of_looked hc rfl rfl rfl (by simp [Mark.Follows]) ?_
    rintro n seen ⟨_, _, hattempted, hbuilds⟩
    simp [Call.Recounts, hattempted, hbuilds]
  | attempt i name options target client hc hr hid hname =>
    refine hb.act_of_looked hc rfl rfl rfl (by simp [Mark.Follows]) ?_
    rintro n seen ⟨rfl, hwanted, hattempted, hbuilds⟩
    have hattempt := buildsOf_of_ne_built [.attempted i] i (by simp)
    simp [Call.Recounts, hname, hwanted, hbuilds, hattempt]
  | build i name target client hc =>
    refine hb.act_of_looked hc rfl rfl rfl (by simp [Mark.Follows]) ?_
    rintro n seen ⟨rfl, hname, hwanted, hattempted, hbuilds⟩
    simp [Call.Recounts, hname, hwanted, hattempted, hbuilds]
  | fail i name target client o r hc ho hr =>
    refine hb.act_of_looked hc rfl rfl rfl (by simp [Mark.Follows]) ?_
    rintro n seen ⟨rfl, hname, hwanted, hattempted, hbuilds⟩
    simp [Call.Recounts, hwanted, hattempted, hbuilds, hr]
  | place i name target client hc =>
    refine hb.act_of_looked hc rfl rfl rfl (by simp [Mark.Follows]) ?_
    rintro n seen ⟨rfl, hname, hwanted, hattempted, hbuilds⟩
    simp [Call.Recounts, hname, hwanted, hattempted, hbuilds]
  | displace i name target client previous hc =>
    refine hb.act_of_looked hc rfl rfl rfl (by simp [Mark.Follows, Mark.call?]) ?_
    rintro n seen ⟨rfl, hname, hwanted, hattempted, hbuilds⟩
    have hdisplaced := buildsOf_of_ne_built [.displaced previous.client b.clock] i (by simp)
    simp [Call.Recounts, hname, hwanted, hattempted, hbuilds, hdisplaced]
  | closeAtOnce i name client previous since hc | schedule i name client previous since hc
  | endCloseNow i name client previous o hc =>
    refine hb.act_of_looked hc rfl rfl rfl (by simp [Mark.Follows]) ?_
    rintro n seen ⟨rfl, hname, target, hwanted, hattempted, hbuilds⟩
    simp [Call.Recounts, hname, hwanted, hattempted, hbuilds]
  | drain | redrain =>
    refine hb.still rfl ?_
    intro m hm
    rw [eq_drained_of_mem hm]
    rfl
  | _ => exact hb.still rfl (by simp)

theorem of_run (runtime : Runtime) (as : List Action) :
    Recounted ((Buffer.start runtime).run as) ((Buffer.start runtime).history as) :=
  effect_invariant Recounted (fun _ _ _ _ _ he hb => hb.step he) as _ (start runtime)

/--
What a constructor gave to a call is for the target that the call has found.
-/
theorem seen_of_built (hb : Recounted b h) {i : Nat} {target : Target} {client : Connection}
    (hbuilt : .built i target client ∈ h) :
    (∃ name, .resolved i name (some target) ∈ h) ∧
      ∀ name seen, .resolved i name seen ∈ h → seen = some target ∧ client.name = name := by
  obtain ⟨c, hc, hnew⟩ := hb.known _ hbuilt i rfl
  have hseen : ∀ name seen, .resolved i name seen ∈ h → seen = some target ∧ client.name = name :=
    fun name seen hm =>
      Call.seen_of_recounts (hb.recounts i c name seen hc hm) ((mem_buildsOf h i target client).2 hbuilt)
  obtain ⟨name, seen, hm⟩ := hb.looked i c hc hnew
  refine ⟨⟨name, ?_⟩, hseen⟩
  rw [← (hseen name seen hm).1]
  exact hm

end Recounted

end Buffer

end Upkeep.Client
