import Upkeep.Proofs.Config.Effect

/-!
This module contains the life of a dispatcher: when a loop is alive, what a start finds at its turn,
and what a start that fails leaves behind.
-/

namespace Upkeep.Config

/--
What a start has found at its turns, as far as it has come. It waits for its turn, has found that
nothing runs and opens a feed, or is over.
-/
def Start.turns : Start → List Bool
  | .waiting => []
  | .opening => [false]
  | .done opened _ => [!opened]

def Occurrence.turn? (i : Nat) : Occurrence α → Option Bool
  | .turn j running => if j = i then some running else none
  | _ => none

/--
What a start has found at its turns, by the history.
-/
def turnsOf (i : Nat) (h : List (Occurrence α)) : List Bool := h.filterMap (Occurrence.turn? i)

theorem turnsOf_append_of_ne {i : Nat} (h : List (Occurrence α)) {ms : List (Occurrence α)}
    (hms : ∀ b, .turn i b ∉ ms) : turnsOf i (h ++ ms) = turnsOf i h := by
  have hnil : ms.filterMap (Occurrence.turn? i) = [] := by
    rw [List.filterMap_eq_nil_iff]
    intro m hm
    cases m with
    | turn j b =>
      have hj : j ≠ i := by
        rintro rfl
        exact hms b hm
      simp [Occurrence.turn?, hj]
    | _ => rfl
  rw [turnsOf, List.filterMap_append, hnil, List.append_nil, turnsOf]

theorem turnsOf_concat_turn (i : Nat) (h : List (Occurrence α)) (b : Bool) :
    turnsOf i (h ++ [.turn i b]) = turnsOf i h ++ [b] := by
  simp [turnsOf, Occurrence.turn?]

namespace Dispatcher

variable {d next : Dispatcher α} {a : DispatcherAction α} {h ms : List (Occurrence α)}

/--
A dispatcher is started just while a loop is alive, and has ended just if there were loops and none
is alive. When it has ended, no subscription is registered.
-/
structure Lives (d : Dispatcher α) : Prop where
  alive : d.started = true → ∃ l ∈ d.loops, l.phase ≠ .gone
  ended : d.ended = true ↔ d.started = false ∧ d.loops ≠ []
  cleared : d.ended = true → d.registered = []

namespace Lives

theorem make (key : String) : Lives (Dispatcher.make key : Dispatcher α) := by
  constructor <;> simp [Dispatcher.make]

theorem still (hd : Lives d) (hloops : next.loops = d.loops) (hstarted : next.started = d.started)
    (hended : next.ended = d.ended)
    (hregistered : d.registered = [] → next.registered = []) : Lives next := by
  constructor
  . rw [hloops, hstarted]
    exact hd.alive
  . rw [hloops, hstarted, hended]
    exact hd.ended
  . intro he
    rw [hended] at he
    exact hregistered (hd.cleared he)

theorem step (hd : Lives d) (he : d.Effect a next ms) : Lives next := by
  cases he with
  | subscribe hended => exact ⟨hd.alive, hd.ended, by simp [hended]⟩
  | succeed i feed ho => constructor <;> simp
  | finish i feed hl hx =>
    have hlt := (List.getElem?_eq_some_iff.1 hl).1
    refine ⟨?_, ?_, hd.cleared⟩
    . intro _
      exact ⟨⟨feed, .ending⟩, List.mem_set hlt _, by simp⟩
    . simpa using hd.ended
  | clear i feed hl hh =>
    have hne : d.loops ≠ [] := by
      intro hnil
      simp [hnil] at hl
    constructor <;> simp [release, hne]
  | receive i feed c x rest hl hc hq =>
    refine hd.still rfl rfl rfl ?_
    intro hnil
    simp [dispatch, hnil]
  | desert handle hgone => exact hd.still rfl rfl rfl fun _ => rfl
  | _ => exact hd.still rfl rfl rfl id

theorem run (hd : Lives d) (hone : OneLoop d) (as : List (DispatcherAction α)) :
    OneLoop (d.run as) ∧ Lives (d.run as) :=
  run_invariant (fun _ => True) (fun d _ => Lives d) (fun _ _ _ _ _ _ _ he hd => hd.step he) as d
    hone hd (fun _ _ => trivial)

theorem started_of_gone (hd : Lives d) (hgone : ∀ l ∈ d.loops, l.phase = .gone) :
    d.started = false := by
  cases hs : d.started with
  | false => rfl
  | true =>
    obtain ⟨l, hl, halive⟩ := hd.alive hs
    exact absurd (hgone l hl) halive

theorem started_iff (hd : Lives d) (hone : OneLoop d) :
    d.started = true ↔ ∃ l ∈ d.loops, l.phase ≠ .gone := by
  constructor
  . exact hd.alive
  . rintro ⟨l, hl, halive⟩
    cases hs : d.started with
    | true => rfl
    | false => exact absurd (hone.idle hs l hl) halive

end Lives

/--
The history tells what each start has found at its turns.
-/
def Tells (d : Dispatcher α) (h : List (Occurrence α)) : Prop :=
  ∀ i, turnsOf i h = ((d.starts[i]?).map Start.turns).getD []

namespace Tells

theorem still (hd : Tells d h) (hstarts : next.starts = d.starts) (hms : ∀ i b, .turn i b ∉ ms) :
    Tells next (h ++ ms) := by
  intro i
  rw [turnsOf_append_of_ne h (hms i), hd, hstarts]

theorem of_turn (hd : Tells d h) {i : Nat} {b : Bool} {st : Start}
    (hw : d.starts[i]? = some .waiting) (hstarts : next.starts = d.starts.set i st)
    (hst : st.turns = [b]) : Tells next (h ++ [.turn i b]) := by
  intro j
  rw [hstarts, getElem?_set_of_getElem? hw]
  by_cases hj : j = i
  . subst hj
    rw [turnsOf_concat_turn, hd, hw, if_pos rfl]
    exact hst.symm
  . have hne : ∀ b', Occurrence.turn j b' ∉ [(Occurrence.turn i b : Occurrence α)] := by
      simp [hj]
    rw [turnsOf_append_of_ne h hne, hd, if_neg hj]

theorem of_end (hd : Tells d h) {i : Nat} {r : Except ConfigError Unit}
    (ho : d.starts[i]? = some .opening) (hstarts : next.starts = d.starts.set i (.done true r)) :
    Tells next (h ++ []) := by
  intro j
  rw [List.append_nil, hd, hstarts, getElem?_set_of_getElem? ho]
  by_cases hj : j = i
  . subst hj
    simp [ho, Start.turns]
  . rw [if_neg hj]

theorem step (hd : Tells d h) (he : d.Effect a next ms) : Tells next (h ++ ms) := by
  cases he with
  | start =>
    intro i
    rw [List.append_nil, hd, getElem?_concat]
    split
    . next hi => simp [hi, Start.turns]
    . rfl
  | decline i hw hh hs => exact hd.of_turn hw rfl (by simp [Start.turns, hs])
  | begin i hw hh hs => exact hd.of_turn hw rfl (by simp [Start.turns, hs])
  | succeed i feed ho => exact hd.of_end ho rfl
  | fail i e ho => exact hd.of_end ho rfl
  | look k s hs =>
    refine hd.still rfl ?_
    intro i b
    split <;> simp
  | _ => exact hd.still rfl (by simp)

end Tells

/--
No start is opening a feed and nothing runs, so that a start that gets its turn opens a feed.
-/
structure IsIdle (d : Dispatcher α) : Prop where
  free : d.holder = none
  still : d.started = false

namespace IsIdle

theorem step (hd : IsIdle d) (hone : OneLoop d) (he : d.Effect a next ms)
    (ha : ∀ i, a ≠ .acquire i) : IsIdle next := by
  have hnone : ∀ i : Nat, d.starts[i]? ≠ some .opening := by
    intro i hi
    simpa [hd.free] using hone.opening i hi
  cases he with
  | decline i | begin i => exact absurd rfl (ha i)
  | succeed i feed ho => exact absurd ho (hnone i)
  | fail i e ho => exact absurd ho (hnone i)
  | clear => exact ⟨hd.free, rfl⟩
  | _ => exact ⟨hd.free, hd.still⟩

theorem run (hd : IsIdle d) (hone : OneLoop d) (as : List (DispatcherAction α))
    (has : ∀ i, .acquire i ∉ as) : IsIdle (d.run as) := by
  have hrun := run_invariant (fun a => ∀ i, a ≠ .acquire i) (fun d _ => IsIdle d)
    (fun d _ a next ms ha hone he hd => hd.step hone he ha) as d hone hd
    (fun a ha i heq => has i (heq ▸ ha))
  exact hrun.2

theorem acquire (hd : IsIdle d) {i : Nat} (hw : d.starts[i]? = some .waiting) :
    (d.step (.acquire i)).1 = { d with starts := d.starts.set i .opening, holder := some i } := by
  simp [Dispatcher.step, Dispatcher.acquire, hw, hd.free, hd.still]

end IsIdle

theorem key_of_effect (he : d.Effect a next ms) : next.key = d.key := by
  cases he <;> rfl

/--
At all times at most one loop is alive, and the dispatcher is started just while one is. When it has
ended, it is not started and no subscription is registered. A start invokes the opening of a feed
just if it finds at its turn that the dispatcher is not started. If the feed cannot be opened, the
start answers why, and all else is as it was, so that the next start that gets its turn opens a feed
again, whatever happens in between.
-/
theorem life_cycle (key : String) (as : List (DispatcherAction α)) :
    let d := (Dispatcher.make key).run as
    let h := (Dispatcher.make key).history as
    (∀ (i j : Nat) l l', d.loops[i]? = some l → d.loops[j]? = some l' →
      l.phase ≠ .gone → l'.phase ≠ .gone → i = j) ∧
    (d.started = true ↔ ∃ l ∈ d.loops, l.phase ≠ .gone) ∧
    (d.ended = true → d.started = false ∧ d.registered = []) ∧
    (∀ (i : Nat) st, d.starts[i]? = some st → turnsOf i h = st.turns) ∧
    ∀ (i : Nat) e, d.starts[i]? = some .opening →
      let next := (d.step (.opened i (.error e))).1
      next = { d with
        starts := d.starts.set i (.done true (.error (.watch key e))), holder := none } ∧
      ∀ bs, (∀ j, .acquire j ∉ bs) → ∀ j : Nat, (next.run bs).starts[j]? = some .waiting →
        ((next.run bs).step (.acquire j)).1.starts[j]? = some .opening := by
  intro d h
  obtain ⟨hone, hkey, hlives, htells⟩ :
      OneLoop d ∧ d.key = key ∧ Lives d ∧ Tells d h := run_invariant (fun _ => True)
    (fun d h => d.key = key ∧ Lives d ∧ Tells d h)
    (fun d h a next ms _ _ he hd =>
      ⟨(key_of_effect he).trans hd.1, hd.2.1.step he, hd.2.2.step he⟩)
    as (Dispatcher.make key) (.make key) ⟨rfl, .make key, fun _ => rfl⟩ (fun _ _ => trivial)
  refine ⟨hone.single, hlives.started_iff hone, ?_, ?_, ?_⟩
  . intro hended
    exact ⟨(hlives.ended.1 hended).1, hlives.cleared hended⟩
  . intro i st hst
    rw [htells, hst]
    rfl
  . intro i e ho next
    have hnext : next = { d with
        starts := d.starts.set i (.done true (.error (.watch key e))), holder := none } := by
      simp only [next, step, opened, ho, hkey]
    refine ⟨hnext, ?_⟩
    intro bs hbs j hw
    have hidle : IsIdle next := by
      rw [hnext]
      exact ⟨rfl, hone.held i (hone.opening i ho)⟩
    have hlast := hidle.run (hone.step _) bs hbs
    rw [hlast.acquire hw]
    exact List.getElem?_set_self (List.getElem?_eq_some_iff.1 hw).1

/--
A start that waits while another one opens a feed, and opens one itself when that has failed.
-/
theorem waiting_start_opens_after_failure :
    let d := (make "flags" : Dispatcher Nat).run [.start, .start, .acquire 0, .acquire 1]
    let e := ConfigError.json
    let next := (d.step (.opened 0 (.error e))).1
    d.starts[1]? = some .waiting ∧ next.starts[0]? = some (.done true (.error (.watch "flags" e))) ∧
      (next.step (.acquire 1)).1.starts[1]? = some .opening := by
  intro d e next
  have hlife := life_cycle "flags" ([.start, .start, .acquire 0, .acquire 1] :
    List (DispatcherAction Nat))
  have hfailed := hlife.2.2.2.2 0 e rfl
  exact ⟨rfl, rfl, hfailed.2 [] (by simp) 1 rfl⟩

end Dispatcher

end Upkeep.Config
