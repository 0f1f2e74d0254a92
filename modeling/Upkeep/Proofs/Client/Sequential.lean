import Upkeep.Proofs.Client.Conservation
import Upkeep.Proofs.Client.Drain
import Upkeep.Proofs.Client.Story

/-!
This module contains what a buffer does when its calls do not overlap. The builds that have
succeeded so far then say all there is to say of it: which calls run the constructor, what the others
give, what the records are, and what is closed in the end.
-/

namespace Upkeep

theorem Text.trim_eq_empty_iff (s : String) : Text.trim s = "" ↔ Text.isBlankText s = true := by
  rw [Text.trim, ← String.ofList_nil, String.ofList_inj, Text.trimChars_eq_nil_iff]
  rfl

namespace Client

open Config

theorem filter_isConfigured (seen : Option Target) (target : Target) :
    seen.filter Target.isConfigured = some target ↔
      seen = some target ∧ Text.trim target.address ≠ "" := by
  rw [Option.filter_eq_some_iff, ne_eq, Text.trim_eq_empty_iff]
  simp [Target.isConfigured]

def Call.isOver : Call → Bool
  | .done _ => true
  | _ => false

def Call.isBuilt : Call → Bool
  | .built .. => true
  | _ => false

def Action.isBegin : Action → Bool
  | .begin .. => true
  | _ => false

def Mark.looks (i : Nat) : Mark → Bool
  | .resolved j .. => j = i
  | _ => false

/--
The history before a call looked for its target.
-/
def before (h : List Mark) (i : Nat) : List Mark := h.takeWhile fun m => !m.looks i

theorem before_append (h ms : List Mark) (i : Nat) (name : String) (seen : Option Target)
    (hm : .resolved i name seen ∈ h) : before (h ++ ms) i = before h i := by
  have hshort : (h.takeWhile fun m => !m.looks i).length ≠ h.length := by
    intro hlen
    have hall : (h.takeWhile fun m => !m.looks i).all (fun m => !m.looks i) = true :=
      List.all_takeWhile
    rw [(List.takeWhile_prefix _).eq_of_length hlen] at hall
    simpa [Mark.looks] using List.all_eq_true.1 hall _ hm
  rw [before, List.takeWhile_append, if_neg hshort]
  rfl

theorem before_concat (h : List Mark) (i : Nat) (name : String) (seen : Option Target)
    (hnone : ∀ m ∈ h, m.call? ≠ some i) : before (h ++ [.resolved i name seen]) i = h := by
  have hall : ∀ m ∈ h, (!m.looks i) = true := by
    intro m hm
    have hne := hnone m hm
    cases m with
    | resolved j name seen => simpa [Mark.looks, Mark.call?] using hne
    | attempted | built | displaced | drained => rfl
  rw [before, List.takeWhile_append_of_pos hall]
  simp [Mark.looks]

theorem lastBuild?_eq_of_builds {h h' : List Mark} (hbuilds : builds h = builds h')
    (name : String) : lastBuild? h name = lastBuild? h' name := by
  rw [lastBuild?, lastBuild?, hbuilds]

theorem lastBuild?_concat (h : List Mark) (i : Nat) (target : Target) (client : Connection)
    (name : String) :
    lastBuild? (h ++ [.built i target client]) name =
      if client.name = name then some (target, client) else lastBuild? h name := by
  have hone : builds [.built i target client] = [(target, client)] := rfl
  rw [lastBuild?, builds_append, hone, List.filter_append]
  by_cases hname : client.name = name
  . simp [hname]
  . simp [hname, lastBuild?]

def lastAddress? (h : List Mark) (name : String) : Option String :=
  (lastBuild? h name).map (·.1.address)

def lastRecord? (h : List Mark) (name : String) : Option (Record Connection) :=
  (lastBuild? h name).map fun build => Record.make build.2 build.1.address build.1.timeout

/--
What a call gets when it does not run the constructor: the last client that was built for the name.
-/
def served (h : List Mark) (name : String) : Result :=
  match lastBuild? h name with
  | some (_, client) => .client client
  | none => .error (.notConfigured name)

/--
Whether a call that has found `seen` in the table has to run the constructor: when there is a target
that is not blank, and its address is not the one for which the last client was built.
-/
def Due (h : List Mark) (name : String) (seen : Option Target) : Prop :=
  ∃ target, seen = some target ∧ Text.trim target.address ≠ "" ∧
    lastAddress? h name ≠ some target.address

theorem lastRecord?_eq_of_builds {h h' : List Mark} (hbuilds : builds h = builds h')
    (name : String) : lastRecord? h name = lastRecord? h' name := by
  rw [lastRecord?, lastRecord?, lastBuild?_eq_of_builds hbuilds]

theorem served_of_lastRecord? (h : List Mark) (name : String) :
    served h name =
      match lastRecord? h name with
      | some r => .client r.client
      | none => .error (.notConfigured name) := by
  unfold served lastRecord?
  cases lastBuild? h name <;> rfl

theorem lastAddress?_eq_map_lastRecord? (h : List Mark) (name : String) :
    lastAddress? h name = (lastRecord? h name).map (·.target) := by
  unfold lastAddress? lastRecord?
  cases lastBuild? h name <;> rfl

theorem due_iff_of_filter (h : List Mark) (name : String) (seen : Option Target) (target : Target)
    (hseen : seen.filter Target.isConfigured = some target) :
    Due h name seen ↔ lastAddress? h name ≠ some target.address := by
  obtain ⟨rfl, htrim⟩ := (filter_isConfigured seen target).1 hseen
  simp [Due, htrim]

theorem not_due_of_filter (h : List Mark) (name : String) (seen : Option Target)
    (hseen : seen.filter Target.isConfigured = none) : ¬ Due h name seen := by
  rintro ⟨target, htarget, htrim, _⟩
  simp [(filter_isConfigured seen target).2 ⟨htarget, htrim⟩] at hseen

/--
What the builds before a call say of it, by the phase of the call.
-/
def Call.Decided (h : List Mark) (i : Nat) (name : String) (seen : Option Target) : Call → Prop
  | .begun .. => True
  | .resolved .. => builds (before h i) = builds h
  | .constructing .. | .built .. | .displaced .. | .closing .. => Due (before h i) name seen
  | .done r =>
    (.attempted i ∈ h ↔ Due (before h i) name seen) ∧
      (.attempted i ∉ h → r = served (before h i) name)

theorem Call.Decided.append {c : Call} {h ms : List Mark} {i : Nat} {name : String}
    {seen : Option Target} (hd : c.Decided h i name seen) (hm : .resolved i name seen ∈ h)
    (hms : ∀ m ∈ ms, m.call? ≠ some i)
    (hbuilds : (∀ n o t, c ≠ .resolved n o t) ∨ builds ms = []) :
    c.Decided (h ++ ms) i name seen := by
  have hattempted : .attempted i ∈ h ++ ms ↔ .attempted i ∈ h := by
    simp only [List.mem_append, or_iff_left_iff_imp]
    exact fun hm => absurd rfl (hms _ hm)
  have hbefore := before_append h ms i name seen hm
  cases c with
  | resolved n o t =>
    rcases hbuilds with hne | hnil
    . exact absurd rfl (hne n o t)
    . rw [Decided] at hd ⊢
      rw [hbefore, hd, builds_append, hnil, List.append_nil]
  | begun => trivial
  | constructing | built | displaced | closing | done =>
    simpa only [Decided, hbefore, hattempted] using hd

namespace Buffer

/--
Whether an action keeps calls from overlapping: a call may begin when all others are over.
-/
def Sequential (b : Buffer) (a : Action) : Prop :=
  a.isBegin = true → ∀ c ∈ b.calls, c.isOver = true

instance (b : Buffer) (a : Action) : Decidable (b.Sequential a) :=
  inferInstanceAs (Decidable (_ → _))

/--
No two calls are on their way.
-/
def Alone (b : Buffer) : Prop :=
  ∀ (i j : Nat) c d, b.calls[i]? = some c → b.calls[j]? = some d →
    c.isOver = false → d.isOver = false → i = j

namespace Alone

variable {b next : Buffer} {ms : List Mark}

theorem of_set (hb : Alone b) {i : Nat} {c c' : Call} (hc : b.calls[i]? = some c)
    (hover : c.isOver = false) (hcalls : next.calls = b.calls.set i c') : Alone next := by
  have hleft : ∀ (j : Nat) d, next.calls[j]? = some d → d.isOver = false → j = i := by
    intro j d hd hnot
    rw [hcalls] at hd
    rcases origin_of_set hd with ⟨hj, _⟩ | ⟨_, hd⟩
    . exact hj
    . exact hb j i d c hd hc hnot hover
  intro j k d e hd he hdover heover
  rw [hleft j d hd hdover, hleft k e he heover]

theorem begin (name options : String) (hover : ∀ c ∈ b.calls, c.isOver = true) :
    Alone { b with calls := b.calls ++ [.begun name options] } := by
  have hleft : ∀ (j : Nat) d, (b.calls ++ [.begun name options])[j]? = some d →
      d.isOver = false → j = b.calls.length := by
    intro j d hd hnot
    rcases origin_of_concat hd with ⟨hj, _⟩ | ⟨_, hd⟩
    . exact hj
    . simp [hover d (List.mem_of_getElem? hd)] at hnot
  intro j k d e hd he hdover heover
  rw [hleft j d hd hdover, hleft k e he heover]

theorem step (hb : Alone b) {a : Action} (hseq : b.Sequential a) (he : b.Effect a next ms) :
    Alone next := by
  cases he with
  | begin name options => exact begin name options (hseq rfl)
  | resolve _ _ _ hc | serve _ _ _ _ hc | refuse _ _ _ hc | reuse _ _ _ _ _ hc
  | attempt _ _ _ _ _ hc | build _ _ _ _ hc | fail _ _ _ _ _ _ hc | place _ _ _ _ hc
  | displace _ _ _ _ _ hc | closeAtOnce _ _ _ _ _ hc | schedule _ _ _ _ _ hc
  | endCloseNow _ _ _ _ _ hc => exact hb.of_set hc rfl rfl
  | _ => exact hb

end Alone

/--
Records are as the last builds make them, once the builds are in the buffer.
-/
structure Current (b : Buffer) (h : List Mark) : Prop where
  record : ∀ name, (∀ (i : Nat) t c, b.calls[i]? ≠ some (.built name t c)) →
    b.record? name = lastRecord? h name
  latest : ∀ (i : Nat) name t c, b.calls[i]? = some (.built name t c) →
    lastBuild? h name = some (t, c)

namespace Current

variable {b next : Buffer} {h ms : List Mark}

theorem start (runtime : Runtime) : Current (Buffer.start runtime) [] := by
  constructor <;> simp [Buffer.start, record?, lastRecord?, lastBuild?]

theorem still (hb : Current b h)
    (hcalls : ∀ (i : Nat) name t c, next.calls[i]? = some (.built name t c) ↔
      b.calls[i]? = some (.built name t c))
    (hrecords : next.records = b.records) (hms : builds ms = []) : Current next (h ++ ms) := by
  have hbuilds : builds (h ++ ms) = builds h := by simp [hms]
  constructor
  . intro name hnone
    rw [lastRecord?_eq_of_builds hbuilds, record?, hrecords]
    exact hb.record name fun i t c hc => hnone i t c ((hcalls i name t c).2 hc)
  . intro i name t c hc
    rw [lastBuild?_eq_of_builds hbuilds]
    exact hb.latest i name t c ((hcalls i name t c).1 hc)

theorem of_set (hb : Current b h) {i : Nat} {c c' : Call} (hc : b.calls[i]? = some c)
    (hcalls : next.calls = b.calls.set i c') (hbuilt : c.isBuilt = false)
    (hbuilt' : c'.isBuilt = false) (hrecords : next.records = b.records) (hms : builds ms = []) :
    Current next (h ++ ms) := by
  refine hb.still ?_ hrecords hms
  intro j name t d
  rw [hcalls, getElem?_set_of_getElem? hc]
  by_cases hj : j = i
  . subst hj
    rw [if_pos rfl, hc, Option.some.injEq, Option.some.injEq]
    constructor
    . rintro rfl
      simp [Call.isBuilt] at hbuilt'
    . rintro rfl
      simp [Call.isBuilt] at hbuilt
  . rw [if_neg hj]

theorem begin (hb : Current b h) (name options : String) :
    Current { b with calls := b.calls ++ [.begun name options] } (h ++ []) := by
  refine hb.still ?_ rfl rfl
  intro i n t c
  simp only [getElem?_concat]
  split
  . next hi => simp [hi]
  . rfl

theorem build (hb : Current b h) (halone : Alone b) (i : Nat) (name : String) (target : Target)
    (client : Connection) (hc : b.calls[i]? = some (.constructing name target client))
    (hname : client.name = name) :
    Current { b with calls := b.calls.set i (.built name target client) }
      (h ++ [.built i target client]) := by
  have hother : ∀ (j : Nat) n t d, b.calls[j]? ≠ some (.built n t d) := by
    intro j n t d hd
    have hij := halone j i _ _ hd hc rfl rfl
    rw [hij, hc] at hd
    simp at hd
  constructor
  . intro n hnone
    have hne : client.name ≠ n := by
      intro heq
      apply hnone i target client
      simp [getElem?_set_of_getElem? hc, ← heq, hname]
    rw [lastRecord?, lastBuild?_concat, if_neg hne]
    exact hb.record n fun j t d => hother j n t d
  . intro j n t d hd
    rcases origin_of_set hd with ⟨_, heq⟩ | ⟨_, hd⟩
    . obtain ⟨rfl, rfl, rfl⟩ := Call.built.inj heq
      rw [lastBuild?_concat, if_pos hname]
    . exact absurd hd (hother j n t d)

theorem insert (hb : Current b h) (halone : Alone b) (i : Nat) (name : String) (target : Target)
    (client : Connection) (c' : Call) (hc : b.calls[i]? = some (.built name target client))
    (hcalls : next.calls = b.calls.set i c') (hbuilt : c'.isBuilt = false)
    (hrecords : next.records =
      b.records.insert name (Record.make client target.address target.timeout))
    (hms : builds ms = []) : Current next (h ++ ms) := by
  have hbuilds : builds (h ++ ms) = builds h := by simp [hms]
  have hnone : ∀ (j : Nat) n t d, next.calls[j]? ≠ some (.built n t d) := by
    intro j n t d hd
    rw [hcalls] at hd
    rcases origin_of_set hd with ⟨_, rfl⟩ | ⟨hj, hd⟩
    . simp [Call.isBuilt] at hbuilt
    . exact hj (halone j i _ _ hd hc rfl rfl)
  constructor
  . intro n _
    rw [lastRecord?_eq_of_builds hbuilds, record?, hrecords, Dict.get?_insert]
    by_cases hn : n = name
    . rw [if_pos hn, lastRecord?, hn, hb.latest i name target client hc]
      rfl
    . rw [if_neg hn]
      apply hb.record n
      intro j t d hd
      have hij := halone j i _ _ hd hc rfl rfl
      rw [hij, hc, Option.some.injEq] at hd
      exact hn (Call.built.inj hd).1.symm
  . intro j n t d hd
    exact absurd hd (hnone j n t d)

theorem step (hb : Current b h) (halone : Alone b) (hnumbered : Numbered b h) {a : Action}
    (he : b.Effect a next ms) : Current next (h ++ ms) := by
  cases he with
  | begin name options => exact hb.begin name options
  | resolve _ _ _ hc | serve _ _ _ _ hc | refuse _ _ _ hc | reuse _ _ _ _ _ hc
  | attempt _ _ _ _ _ hc | fail _ _ _ _ _ _ hc | closeAtOnce _ _ _ _ _ hc
  | schedule _ _ _ _ _ hc | endCloseNow _ _ _ _ _ hc => exact hb.of_set hc rfl rfl rfl rfl rfl
  | build i name target client hc =>
    exact hb.build halone i name target client hc (hnumbered.fresh i name target client hc).2.1
  | place i name target client hc => exact hb.insert halone i name target client _ hc rfl rfl rfl rfl
  | displace i name target client previous hc =>
    exact hb.insert halone i name target client _ hc rfl rfl rfl rfl
  | drain | redrain => exact hb.still (fun _ _ _ _ => Iff.rfl) rfl (by split <;> rfl)
  | _ => exact hb.still (fun _ _ _ _ => Iff.rfl) rfl rfl

end Current

/--
What holds of a buffer whose calls do not overlap.
-/
structure InOrder (b : Buffer) (h : List Mark) : Prop where
  sound : Sound b h
  recounted : Recounted b h
  alone : Alone b
  current : Current b h
  decided : ∀ (i : Nat) c name seen, b.calls[i]? = some c → .resolved i name seen ∈ h →
    c.Decided h i name seen

namespace InOrder

variable {b next : Buffer} {h ms : List Mark}

theorem start (runtime : Runtime) : InOrder (Buffer.start runtime) [] :=
  ⟨.start runtime, .start runtime, by simp [Alone, Buffer.start], .start runtime, by simp⟩

theorem record?_eq (hb : InOrder b h) {i : Nat} {c : Call} (hc : b.calls[i]? = some c)
    (hover : c.isOver = false) (hbuilt : c.isBuilt = false) (name : String) :
    b.record? name = lastRecord? h name := by
  -- the only call that could have a client out of its record is the one at hand
  apply hb.current.record name
  intro j t d hd
  have hij := hb.alone j i _ _ hd hc rfl hover
  rw [hij, hc, Option.some.injEq] at hd
  simp [hd, Call.isBuilt] at hbuilt

theorem decided_of_still (hb : InOrder b h) (hcalls : next.calls = b.calls)
    (hms : ∀ m ∈ ms, m.call? = none) (hbuilds : builds ms = []) :
    ∀ (i : Nat) c name seen, next.calls[i]? = some c → .resolved i name seen ∈ h ++ ms →
      c.Decided (h ++ ms) i name seen := by
  intro i c name seen hc hm
  have hold := mem_of_follows (fun m hm => Or.inl (hms m hm)) hm
  refine (hb.decided i c name seen (hcalls ▸ hc) hold).append hold ?_ (Or.inr hbuilds)
  intro m hm
  simp [hms m hm]

theorem decided_of_begin (hb : InOrder b h) (name options : String) :
    ∀ (i : Nat) c n seen, (b.calls ++ [.begun name options])[i]? = some c →
      .resolved i n seen ∈ h ++ [] → c.Decided (h ++ []) i n seen := by
  intro i c n seen hc hm
  rw [List.append_nil] at hm ⊢
  rcases origin_of_concat hc with ⟨_, rfl⟩ | ⟨_, hc⟩
  . trivial
  . exact hb.decided i c n seen hc hm

theorem decided_of_set (hb : InOrder b h) {i : Nat} {c c' : Call} (hc : b.calls[i]? = some c)
    (hover : c.isOver = false) (hcalls : next.calls = b.calls.set i c')
    (hms : ∀ m ∈ ms, ∀ j, m.call? = some j → j = i)
    (hself : ∀ name seen, .resolved i name seen ∈ h ++ ms → c'.Decided (h ++ ms) i name seen) :
    ∀ (j : Nat) d name seen, next.calls[j]? = some d → .resolved j name seen ∈ h ++ ms →
      d.Decided (h ++ ms) j name seen := by
  -- other calls are over, and what is decided of them speaks of the history before they looked
  intro j d name seen hd hm
  rw [hcalls] at hd
  rcases origin_of_set hd with ⟨rfl, rfl⟩ | ⟨hj, hd⟩
  . exact hself name seen hm
  . have hold : .resolved j name seen ∈ h := by
      rcases List.mem_append.1 hm with hm | hm
      . exact hm
      . exact absurd (hms _ hm j rfl) hj
    refine (hb.decided j d name seen hd hold).append hold ?_ (Or.inl ?_)
    . intro m hm hmj
      exact hj (hms m hm j hmj)
    . rintro n o t rfl
      exact hj (hb.alone j i _ _ hd hc rfl hover)

theorem decided_of_looked (hb : InOrder b h) {i : Nat} {c c' : Call} (hc : b.calls[i]? = some c)
    (hover : c.isOver = false) (hcalls : next.calls = b.calls.set i c')
    (hms : ∀ m ∈ ms, m.Follows i)
    (hself : ∀ name seen, before (h ++ ms) i = before h i → c.Recounts h i name seen →
      c.Decided h i name seen → c'.Decided (h ++ ms) i name seen) :
    ∀ (j : Nat) d name seen, next.calls[j]? = some d → .resolved j name seen ∈ h ++ ms →
      d.Decided (h ++ ms) j name seen := by
  refine hb.decided_of_set hc hover hcalls (fun m hm j hj => (hms m hm).call_eq hj) ?_
  intro name seen hm
  have hold := mem_of_follows hms hm
  exact hself name seen (before_append h ms i name seen hold)
    (hb.recounted.recounts i c name seen hc hold) (hb.decided i c name seen hc hold)

theorem decided_resolve (hb : InOrder b h) (i : Nat) (name options : String)
    (wanted : Option Target) (hc : b.calls[i]? = some (.begun name options))
    (hcalls : next.calls = b.calls.set i (.resolved name options wanted)) :
    ∀ (j : Nat) d n seen, next.calls[j]? = some d →
      .resolved j n seen ∈ h ++ [.resolved i name (b.table.get? name)] →
      d.Decided (h ++ [.resolved i name (b.table.get? name)]) j n seen := by
  refine hb.decided_of_set hc rfl hcalls ?_ ?_
  . intro m hm j hj
    rw [List.mem_singleton.1 hm] at hj
    exact (Option.some.inj hj).symm
  . intro n seen _
    rw [Call.Decided, before_concat h i name _ (hb.recounted.not_mentioned_of_new hc rfl)]
    have hnil : builds [.resolved i name (b.table.get? name)] = [] := rfl
    rw [builds_append, hnil, List.append_nil]

theorem done_of_not_due {i : Nat} {name : String} {seen : Option Target} {r : Result}
    (hattempted : .attempted i ∉ h) (hdue : ¬ Due (before h i) name seen)
    (hr : r = served (before h i) name) : (Call.done r).Decided h i name seen :=
  ⟨by simp [hattempted, hdue], fun _ => hr⟩

theorem done_of_due {i : Nat} {name : String} {seen : Option Target} {r : Result}
    (hattempted : .attempted i ∈ h) (hdue : Due (before h i) name seen) :
    (Call.done r).Decided h i name seen :=
  ⟨by simp [hattempted, hdue], fun hnot => absurd hattempted hnot⟩

theorem decided_step (hb : InOrder b h) {a : Action} (he : b.Effect a next ms) :
    ∀ (i : Nat) c name seen, next.calls[i]? = some c → .resolved i name seen ∈ h ++ ms →
      c.Decided (h ++ ms) i name seen := by
  cases he with
  | begin name options => exact hb.decided_of_begin name options
  | resolve i name options hc => exact hb.decided_resolve i name options _ hc rfl
  | serve i name options r hc hr =>
    refine hb.decided_of_looked hc rfl rfl (by simp) ?_
    rintro n seen - ⟨rfl, hwanted, hattempted, -⟩ hsince
    rw [List.append_nil]
    refine done_of_not_due hattempted (not_due_of_filter _ _ _ hwanted) ?_
    rw [served_of_lastRecord?, lastRecord?_eq_of_builds hsince, ← hb.record?_eq hc rfl rfl, hr]
  | refuse i name options hc hr =>
    refine hb.decided_of_looked hc rfl rfl (by simp) ?_
    rintro n seen - ⟨rfl, hwanted, hattempted, -⟩ hsince
    rw [List.append_nil]
    refine done_of_not_due hattempted (not_due_of_filter _ _ _ hwanted) ?_
    rw [served_of_lastRecord?, lastRecord?_eq_of_builds hsince, ← hb.record?_eq hc rfl rfl, hr]
  | reuse i name options target r hc hr ht =>
    refine hb.decided_of_looked hc rfl rfl (by simp) ?_
    rintro n seen - ⟨rfl, hwanted, hattempted, -⟩ hsince
    have hlast : lastRecord? (before h i) name = some r := by
      rw [lastRecord?_eq_of_builds hsince, ← hb.record?_eq hc rfl rfl, hr]
    rw [List.append_nil]
    refine done_of_not_due hattempted ?_ ?_
    . rw [due_iff_of_filter _ _ _ _ hwanted, lastAddress?_eq_map_lastRecord?, hlast]
      simp [ht]
    . rw [served_of_lastRecord?, hlast]
  | attempt i name options target client hc hr =>
    refine hb.decided_of_looked hc rfl rfl (by simp [Mark.Follows]) ?_
    rintro n seen hbefore ⟨rfl, hwanted, -, -⟩ hsince
    rw [Call.Decided, hbefore, due_iff_of_filter _ _ _ _ hwanted, lastAddress?_eq_map_lastRecord?,
      lastRecord?_eq_of_builds hsince, ← hb.record?_eq hc rfl rfl]
    simpa using hr
  | build i name target client hc =>
    refine hb.decided_of_looked hc rfl rfl (by simp [Mark.Follows]) ?_
    intro n seen hbefore _ hdue
    rw [Call.Decided, hbefore]
    exact hdue
  | fail i name target client o r hc =>
    refine hb.decided_of_looked hc rfl rfl (by simp) ?_
    rintro n seen - ⟨-, -, -, hattempted, -⟩ hdue
    rw [List.append_nil]
    exact done_of_due hattempted hdue
  | place i name target client hc =>
    refine hb.decided_of_looked hc rfl rfl (by simp) ?_
    rintro n seen - ⟨-, -, -, hattempted, -⟩ hdue
    rw [List.append_nil]
    exact done_of_due hattempted hdue
  | displace i name target client previous hc =>
    refine hb.decided_of_looked hc rfl rfl (by simp [Mark.Follows, Mark.call?]) ?_
    intro n seen hbefore _ hdue
    rw [Call.Decided, hbefore]
    exact hdue
  | closeAtOnce i name client previous since hc =>
    refine hb.decided_of_looked hc rfl rfl (by simp) ?_
    intro n seen hbefore _ hdue
    rw [Call.Decided, hbefore]
    exact hdue
  | schedule i name client previous since hc =>
    refine hb.decided_of_looked hc rfl rfl (by simp) ?_
    rintro n seen - ⟨-, -, target, -, hattempted, -⟩ hdue
    rw [List.append_nil]
    exact done_of_due hattempted hdue
  | endCloseNow i name client previous o hc =>
    refine hb.decided_of_looked hc rfl rfl (by simp) ?_
    rintro n seen - ⟨-, -, target, -, hattempted, -⟩ hdue
    rw [List.append_nil]
    exact done_of_due hattempted hdue
  | drain | redrain =>
    refine hb.decided_of_still rfl ?_ (by split <;> rfl)
    intro m hm
    rw [eq_drained_of_mem hm]
    rfl
  | _ => exact hb.decided_of_still rfl (by simp) rfl

theorem step (hb : InOrder b h) {a : Action} (hseq : b.Sequential a) (he : b.Effect a next ms) :
    InOrder next (h ++ ms) :=
  ⟨hb.sound.step he, hb.recounted.step he, hb.alone.step hseq he,
    hb.current.step hb.alone hb.sound.numbered he, hb.decided_step he⟩

theorem of_run (runtime : Runtime) (as : List Action)
    (has : Obeys Sequential (Buffer.start runtime) as) :
    InOrder ((Buffer.start runtime).run as) ((Buffer.start runtime).history as) := by
  have hrun := run_invariant Sequential InOrder (fun _ _ _ _ _ hseq he hb => hb.step hseq he) as
    _ _ (start runtime) has
  simpa using hrun

theorem told (hb : InOrder b h) {i : Nat} {r : Result} (hc : b.calls[i]? = some (.done r))
    {name : String} {seen : Option Target} (hm : .resolved i name seen ∈ h) :
    (.attempted i ∈ h ↔ Due (before h i) name seen) ∧
    (.attempted i ∉ h → r = served (before h i) name) ∧
    (∀ target client, .built i target client ∈ h →
      seen = some target ∧ client.name = name ∧ r = .client client) ∧
    (.attempted i ∈ h → (∀ target client, .built i target client ∉ h) →
      ∀ client, r ≠ .client client) := by
  obtain ⟨hdue, hserved⟩ := hb.decided i _ name seen hc hm
  refine ⟨hdue, hserved, ?_, ?_⟩
  . intro target client hbuilt
    obtain ⟨hseen, hname⟩ := (hb.recounted.seen_of_built hbuilt).2 name seen hm
    refine ⟨hseen, hname, ?_⟩
    have hmem := (mem_buildsOf h i target client).2 hbuilt
    rcases hb.recounted.recounts i _ name seen hc hm with
      ⟨_, hnil⟩ | ⟨_, _, _, ⟨d, hr, _, hone⟩ | ⟨_, hnil⟩⟩
    . simp [hnil] at hmem
    . rw [hone, List.mem_singleton, Prod.mk.injEq] at hmem
      rw [hr, hmem.2]
    . simp [hnil] at hmem
  . intro hattempted hnone
    rcases hb.recounted.recounts i _ name seen hc hm with
      ⟨hnot, _⟩ | ⟨wanted, _, _, ⟨d, _, _, hone⟩ | ⟨hr, _⟩⟩
    . exact absurd hattempted hnot
    . exact absurd ((mem_buildsOf h i wanted d).1 (by simp [hone])) (hnone wanted d)
    . exact hr

theorem record?_of_isOver (hb : InOrder b h) (hover : ∀ c ∈ b.calls, c.isOver = true)
    (name : String) : b.record? name = lastRecord? h name := by
  apply hb.current.record name
  intro i t c hc
  simpa [Call.isOver] using hover _ (List.mem_of_getElem? hc)

theorem clientAt_record (hb : InOrder b h) (hover : ∀ c ∈ b.calls, c.isOver = true)
    (name : String) : b.clientAt (.record name) = (lastBuild? h name).map (·.2) := by
  rw [clientAt, hb.record?_of_isOver hover, lastRecord?, Option.map_map]
  rfl

theorem mem_closings_iff (hb : InOrder b h) (hover : ∀ c ∈ b.calls, c.isOver = true)
    (hdown : ∀ t ∈ b.teardowns, t.unclosed? = none) (c : Connection) :
    c ∈ b.closings.map (·.client) ↔
      c ∈ builtClients h ∧ (lastBuild? h c.name).map (·.2) ≠ some c := by
  -- each client is in one place, and of the places only records and closers are left
  rw [← hb.clientAt_record hover]
  constructor
  . intro hc
    obtain ⟨x, hx, rfl⟩ := List.mem_map.1 hc
    obtain ⟨n, hn⟩ := Sound.closer_of_mem hx
    exact ⟨hb.sound.conserved.sound _ _ hn, hb.sound.not_record_of_outside hn rfl⟩
  . rintro ⟨hc, hlast⟩
    obtain ⟨p, hp⟩ := hb.sound.conserved.complete c hc
    cases p with
    | builder i | displacer i =>
      obtain ⟨call, hcall, hclient⟩ := Option.bind_eq_some_iff.1 hp
      have hdone := hover call (List.mem_of_getElem? hcall)
      cases call <;> simp_all [Call.isOver, Call.unplaced?, Call.displaced?]
    | record name =>
      obtain ⟨r, hr, rfl⟩ := Option.map_eq_some_iff.1 hp
      rw [hb.sound.numbered.recordName name r hr] at hlast
      exact absurd hp hlast
    | teardown i =>
      obtain ⟨t, ht, hclient⟩ := Option.bind_eq_some_iff.1 hp
      simp [hdown t (List.mem_of_getElem? ht)] at hclient
    | closer n =>
      obtain ⟨x, hx, rfl⟩ := Option.map_eq_some_iff.1 hp
      exact List.mem_map_of_mem (List.mem_of_getElem? hx)

end InOrder

theorem unclosed?_of_isOver {t : Teardown} (hover : t.isOver = true) (hphase : t.phase ≠ .cancelled) :
    t.unclosed? = none := by
  cases hp : t.phase <;> simp_all [Teardown.isOver, Teardown.unclosed?]

/--
Calls that do not overlap, with whatever happens between them. A call runs the constructor if and
only if its target is not blank and has another address than the last build for the name, and
otherwise gives the client of that build. The target of a record is that of the last build. When a
drain has ended, the closers have got all clients that were built but the last one of each name,
each of them once.
-/
theorem sequential_calls_follow_builds (runtime : Runtime) (as : List Action)
    (has : Obeys Sequential (Buffer.start runtime) as) :
    let b := (Buffer.start runtime).run as
    let h := (Buffer.start runtime).history as
    (∀ (i : Nat) r, b.calls[i]? = some (.done r) →
      (∃ name seen, .resolved i name seen ∈ h) ∧
      ∀ name seen, .resolved i name seen ∈ h →
        (.attempted i ∈ h ↔ Due (before h i) name seen) ∧
        (.attempted i ∉ h → r = served (before h i) name) ∧
        (∀ target client, .built i target client ∈ h →
          seen = some target ∧ client.name = name ∧ r = .client client) ∧
        (.attempted i ∈ h → (∀ target client, .built i target client ∉ h) →
          ∀ client, r ≠ .client client)) ∧
    ((∀ c ∈ b.calls, c.isOver = true) → ∀ name,
      b.currentTarget? name = lastAddress? h name ∧
      b.clientAt (.record name) = (lastBuild? h name).map (·.2)) ∧
    (∀ bs a d, as = bs ++ [a] → .drained d ∈ ((Buffer.start runtime).run bs).marks a →
      (∀ c ∈ b.calls, c.isOver = true) → (∀ w ∈ b.drains, w = none) → (∀ d, .abandon d ∉ as) →
      runtime ≠ .stopped → .shutdown ∉ as →
      (b.closings.map (·.client)).Nodup ∧
      ∀ c, c ∈ b.closings.map (·.client) ↔
        c ∈ builtClients h ∧ (lastBuild? h c.name).map (·.2) ≠ some c) := by
  intro b h
  have hb : InOrder b h := InOrder.of_run runtime as has
  refine ⟨?_, ?_, ?_⟩
  . intro i r hc
    exact ⟨hb.recounted.looked i _ hc rfl, fun name seen hm => hb.told hc hm⟩
  . intro hover name
    refine ⟨?_, hb.clientAt_record hover name⟩
    rw [currentTarget?, hb.record?_of_isOver hover, lastAddress?_eq_map_lastRecord?]
  . intro bs a d heq hd hover hwait habandon hruntime hshutdown
    refine ⟨hb.sound.nodup_closings, hb.mem_closings_iff hover ?_⟩
    intro t ht
    have hphase := phase_ne_cancelled runtime as hruntime hshutdown t ht
    subst heq
    exact unclosed?_of_isOver (isOver_of_drained runtime bs a d habandon hd hwait t ht) hphase

/--
Calls for one name, one after the other: the first constructor succeeds, the second one panics, the
third one succeeds for a new target, and the last call finds a blank target. The client of the first
is closed, and a drain waits for it.
-/
def callsInTurn : List Action :=
  let table address := TargetTable.empty.upsert "db" ⟨address, .ofSeconds 1⟩
  [.edit (table "a"), .begin "db" "", .proceed 0, .proceed 0, .construct 0 .built, .proceed 0,
   .edit (table "b"), .begin "db" "", .proceed 1, .proceed 1, .construct 1 (.panicked default),
   .begin "db" "", .proceed 2, .proceed 2, .construct 2 .built, .proceed 2, .proceed 2,
   .edit (table " "), .begin "db" "", .proceed 3, .proceed 3,
   .turn 0, .pass (.ofSeconds 1), .turn 0, .closeLater 0 .closed, .drain]

theorem callsInTurn_follow_builds :
    let as := callsInTurn ++ [.redrain 0]
    let b := (Buffer.start .around).run as
    let h := (Buffer.start .around).history as
    Obeys Sequential (Buffer.start .around) as ∧
    (.attempted 2 ∈ h ↔ Due (before h 2) "db" (some ⟨"b", .ofSeconds 1⟩)) ∧
    served (before h 3) "db" = .client ⟨2, "db", "b", ""⟩ ∧
    b.currentTarget? "db" = lastAddress? h "db" ∧
    ⟨0, "db", "a", ""⟩ ∈ b.closings.map (·.client) ∧
    ⟨2, "db", "b", ""⟩ ∉ b.closings.map (·.client) := by
  intro as b h
  have hseq : Obeys Sequential (Buffer.start .around) as := by decide +kernel
  obtain ⟨hcalls, hrecords, hclosings⟩ := sequential_calls_follow_builds .around as hseq
  have hover : ∀ c ∈ b.calls, c.isOver = true := by decide +kernel
  obtain ⟨_, hclosed⟩ := hclosings callsInTurn (.redrain 0) 0 rfl (by decide +kernel) hover
    (by decide +kernel) (by simp [as, callsInTurn]) (by simp) (by simp [as, callsInTurn])
  refine ⟨hseq, ?_, ?_, (hrecords hover "db").1, ?_, ?_⟩
  . obtain ⟨hdue, _⟩ := (hcalls 2 (.client ⟨2, "db", "b", ""⟩) (by decide +kernel)).2 "db"
      (some ⟨"b", .ofSeconds 1⟩) (by decide +kernel)
    exact hdue
  . obtain ⟨_, hserved, _⟩ := (hcalls 3 (.client ⟨2, "db", "b", ""⟩) (by decide +kernel)).2 "db"
      (some ⟨" ", .ofSeconds 1⟩) (by decide +kernel)
    exact (hserved (by decide +kernel)).symm
  . exact (hclosed _).2 (by decide +kernel)
  . intro hmem
    exact absurd ((hclosed _).1 hmem) (by decide +kernel)

end Buffer

end Client

end Upkeep
