import Upkeep.Config.Scene
import Upkeep.Proofs.Lists
import Upkeep.Proofs.Run

/-!
This module contains what holds of a dispatcher at all times: at most one loop takes values out of a
feed, and each subscription that has both of its ends is registered.
-/

namespace Upkeep.Config

namespace Slot

@[simp]
theorem hasSource_poll (x : Slot α) : x.poll.1.hasSource = x.hasSource := by
  unfold poll
  split <;> rfl

@[simp]
theorem hasReader_poll (x : Slot α) : x.poll.1.hasReader = x.hasReader := by
  unfold poll
  split <;> rfl

end Slot

namespace Dispatcher

/--
A dispatcher has at most one loop that is not gone, and none unless it was started. Only one start
waits for a feed, and only while there is no loop.
-/
structure OneLoop (d : Dispatcher α) : Prop where
  single : ∀ (i j : Nat) l l', d.loops[i]? = some l → d.loops[j]? = some l' →
    l.phase ≠ .gone → l'.phase ≠ .gone → i = j
  idle : d.started = false → ∀ l ∈ d.loops, l.phase = .gone
  held : ∀ i, d.holder = some i → d.started = false
  opening : ∀ i : Nat, d.starts[i]? = some .opening → d.holder = some i

namespace OneLoop

variable {d next : Dispatcher α}

theorem still (hd : OneLoop d) (hloops : next.loops = d.loops) (hstarted : next.started = d.started)
    (hholder : next.holder = d.holder) (hstarts : next.starts = d.starts) : OneLoop next := by
  constructor
  . rw [hloops]
    exact hd.single
  . rw [hloops, hstarted]
    exact hd.idle
  . rw [hholder, hstarted]
    exact hd.held
  . rw [hholder, hstarts]
    exact hd.opening

theorem make (key : String) : OneLoop (Dispatcher.make key : Dispatcher α) := by
  constructor <;> simp [Dispatcher.make]

theorem start (hd : OneLoop d) : OneLoop { d with starts := d.starts ++ [.waiting] } := by
  refine ⟨hd.single, hd.idle, hd.held, ?_⟩
  intro i hi
  rcases origin_of_concat hi with ⟨_, heq⟩ | ⟨_, hi⟩
  . cases heq
  . exact hd.opening i hi

theorem opening_of_set {i j : Nat} {st : Start} (hst : st ≠ .opening)
    (hj : (d.starts.set i st)[j]? = some .opening) : j ≠ i ∧ d.starts[j]? = some .opening := by
  rcases origin_of_set hj with ⟨_, heq⟩ | hold
  . exact absurd heq.symm hst
  . exact hold

theorem acquire (hd : OneLoop d) (i : Nat) : OneLoop (d.acquire i) := by
  unfold Dispatcher.acquire
  split
  . next hwaiting hholder =>
    split
    . refine ⟨hd.single, hd.idle, hd.held, ?_⟩
      intro j hj
      exact hd.opening j (opening_of_set (by simp) hj).2
    . next hstarted =>
      refine ⟨hd.single, hd.idle, fun _ _ => by simpa using hstarted, ?_⟩
      intro j hj
      rcases origin_of_set hj with ⟨rfl, _⟩ | ⟨_, hj⟩
      . rfl
      . simp [hd.opening j hj] at hholder
  . exact hd

theorem opened (hd : OneLoop d) (i : Nat) (r : Except ConfigError Nat) :
    OneLoop (d.opened i r).1 := by
  unfold Dispatcher.opened
  split
  . next hopening =>
    have hholder := hd.opening i hopening
    have hstarted := hd.held i hholder
    have hgone := hd.idle hstarted
    have hother : ∀ (j : Nat) (st : Start), st ≠ .opening →
        (d.starts.set i st)[j]? ≠ some .opening := by
      intro j st hst hj
      obtain ⟨hne, hj⟩ := opening_of_set hst hj
      have hjholder := hd.opening j hj
      rw [hholder, Option.some.injEq] at hjholder
      exact hne hjholder.symm
    cases r with
    | ok feed =>
      have hlast : ∀ (j : Nat) l, (d.loops ++ [⟨feed, .running⟩])[j]? = some l →
          l.phase ≠ .gone → j = d.loops.length := by
        intro j l hl hphase
        rcases origin_of_concat hl with ⟨hj, _⟩ | ⟨_, hl⟩
        . exact hj
        . exact absurd (hgone l (List.mem_of_getElem? hl)) hphase
      refine ⟨?_, by simp, by simp, fun j hj => absurd hj (hother j _ (by simp))⟩
      intro j k l l' hl hl' hphase hphase'
      rw [hlast j l hl hphase, hlast k l' hl' hphase']
    | error e =>
      exact ⟨hd.single, hd.idle, by simp, fun j hj => absurd hj (hother j _ (by simp))⟩
  . exact hd

theorem single_of_set (hd : OneLoop d) {i : Nat} {l : Loop} (hi : d.loops[i]? = some l)
    (hphase : l.phase ≠ .gone) (l' : Loop) : ∀ (j : Nat) m, (d.loops.set i l')[j]? = some m →
      m.phase ≠ .gone → j = i := by
  intro j m hm hgone
  rcases origin_of_set hm with ⟨hj, _⟩ | ⟨_, hm⟩
  . exact hj
  . exact hd.single j i m l hm hi hgone hphase

theorem finish (hd : OneLoop d) (i : Nat) : OneLoop (d.finish i).1 := by
  unfold Dispatcher.finish
  split
  . next feed hi =>
    split
    . have hone := hd.single_of_set hi (by simp) ⟨feed, .ending⟩
      refine ⟨?_, ?_, hd.held, hd.opening⟩
      . intro j k l l' hl hl' hphase hphase'
        rw [hone j l hl hphase, hone k l' hl' hphase']
      . intro hstarted
        simpa using hd.idle hstarted _ (List.mem_of_getElem? hi)
    . exact hd
  . exact hd

theorem clear (hd : OneLoop d) (i : Nat) : OneLoop (d.clear i) := by
  unfold Dispatcher.clear
  split
  . next feed hi hholder =>
    have hone := hd.single_of_set hi (by simp) ⟨feed, .gone⟩
    have hlt := (List.getElem?_eq_some_iff.1 hi).1
    have hgone : ∀ l ∈ d.loops.set i ⟨feed, .gone⟩, l.phase = .gone := by
      intro l hl
      obtain ⟨j, hj⟩ := List.mem_iff_getElem?.1 hl
      by_cases hphase : l.phase = .gone
      . exact hphase
      . rw [hone j l hj hphase, List.getElem?_set_self hlt, Option.some.injEq] at hj
        rw [← hj]
    refine ⟨?_, fun _ => hgone, by simp [release, hholder], hd.opening⟩
    intro j k l l' hl hl' hphase
    exact absurd (hgone l (List.mem_of_getElem? hl)) hphase
  . exact hd

theorem drop (hd : OneLoop d) (i : Nat) : OneLoop (d.drop i) := by
  unfold Dispatcher.drop
  dsimp only
  split
  . exact hd.still rfl rfl rfl rfl
  . exact hd.still rfl rfl rfl rfl

theorem receive (hd : OneLoop d) (i : Nat) : OneLoop (d.receive i).1 := by
  unfold Dispatcher.receive
  split
  . split
    . split
      . exact hd.still rfl rfl rfl rfl
      . exact hd
    . exact hd
  . exact hd

theorem poll (hd : OneLoop d) (i : Nat) : OneLoop (d.poll i).1 := by
  unfold Dispatcher.poll
  split
  . exact hd.still rfl rfl rfl rfl
  . exact hd

theorem subscribe (hd : OneLoop d) : OneLoop d.subscribe := by
  unfold Dispatcher.subscribe
  split
  . exact hd.still rfl rfl rfl rfl
  . exact hd.still rfl rfl rfl rfl

theorem step (hd : OneLoop d) (a : DispatcherAction α) : OneLoop (d.step a).1 := by
  cases a with
  | subscribe => exact hd.subscribe
  | poll i => exact hd.poll i
  | start => exact hd.start
  | acquire i => exact hd.acquire i
  | opened i r => exact hd.opened i r
  | receive i => exact hd.receive i
  | finish i => exact hd.finish i
  | clear i => exact hd.clear i
  | drop i => exact hd.drop i
  | unsubscribe | makeChannel | send | dropSender | clone => exact hd.still rfl rfl rfl rfl

end OneLoop

/--
Values are handed to each subscription that has both of its ends.
-/
def Listed (d : Dispatcher α) : Prop :=
  ∀ (k : Nat) x, d.slots[k]? = some x → x.hasSource = true → x.hasReader = true →
    ∃ id, (id, k) ∈ d.registered

namespace Listed

variable {d next : Dispatcher α}

theorem of_slots (hd : Listed d) (hregistered : next.registered = d.registered)
    (hslots : ∀ (k : Nat) x, next.slots[k]? = some x → x.hasSource = true → x.hasReader = true →
      ∃ y, d.slots[k]? = some y ∧ y.hasSource = true ∧ y.hasReader = true) : Listed next := by
  intro k x hx hsource hreader
  obtain ⟨y, hy, hsource, hreader⟩ := hslots k x hx hsource hreader
  rw [hregistered]
  exact hd k y hy hsource hreader

theorem still (hd : Listed d) (hregistered : next.registered = d.registered)
    (hslots : next.slots = d.slots) : Listed next := by
  refine hd.of_slots hregistered ?_
  intro k x hx hsource hreader
  exact ⟨x, hslots ▸ hx, hsource, hreader⟩

theorem make (key : String) : Listed (Dispatcher.make key : Dispatcher α) := by
  simp [Listed, Dispatcher.make]

theorem subscribe (hd : Listed d) : Listed d.subscribe := by
  unfold Dispatcher.subscribe
  split
  . intro k x hx hsource hreader
    rcases origin_of_concat hx with ⟨_, rfl⟩ | ⟨_, hx⟩
    . simp [Slot.empty] at hsource
    . exact hd k x hx hsource hreader
  . intro k x hx hsource hreader
    rcases origin_of_concat hx with ⟨rfl, _⟩ | ⟨_, hx⟩
    . exact ⟨d.nextId, by simp⟩
    . obtain ⟨id, hid⟩ := hd k x hx hsource hreader
      exact ⟨id, List.mem_append_left _ hid⟩

theorem unsubscribe (hd : Listed d) (i : Nat) : Listed (d.unsubscribe i) := by
  refine hd.of_slots rfl ?_
  intro k x hx hsource hreader
  simp only [Dispatcher.unsubscribe, List.getElem?_modify] at hx
  obtain ⟨y, hy, hmap⟩ := Option.map_eq_some_iff.1 hx
  by_cases hi : i = k
  . rw [if_pos hi] at hmap
    simp [← hmap] at hreader
  . rw [if_neg hi] at hmap
    exact ⟨y, hy, hmap ▸ hsource, hmap ▸ hreader⟩

theorem poll (hd : Listed d) (i : Nat) : Listed (d.poll i).1 := by
  unfold Dispatcher.poll
  split
  . next y hy =>
    refine hd.of_slots rfl ?_
    intro k x hx hsource hreader
    rcases origin_of_set hx with ⟨rfl, rfl⟩ | ⟨_, hx⟩
    . rw [Slot.hasSource_poll] at hsource
      rw [Slot.hasReader_poll] at hreader
      exact ⟨y, hy, hsource, hreader⟩
    . exact ⟨x, hx, hsource, hreader⟩
  . exact hd

theorem dispatch (hd : Listed d) (v : α) : Listed (d.dispatch v).1 := by
  -- only subscriptions without a reader are taken out of the registry
  intro k x hx hsource hreader
  have hput : ∀ x : Slot α, (x.put v).put v = x.put v := fun x => rfl
  simp only [Dispatcher.dispatch, List.partition_eq_filter_filter] at hx ⊢
  rw [getElem?_foldl_modify _ hput] at hx
  obtain ⟨y, hy, hysource, hyreader⟩ : ∃ y, d.slots[k]? = some y ∧ y.hasSource = true ∧
      y.hasReader = true := by
    split at hx
    . obtain ⟨y, hy, rfl⟩ := Option.map_eq_some_iff.1 hx
      exact ⟨y, hy, hsource, hreader⟩
    . exact ⟨x, hx, hsource, hreader⟩
  obtain ⟨id, hid⟩ := hd k y hy hysource hyreader
  refine ⟨id, List.mem_filter.2 ⟨hid, ?_⟩⟩
  simp [hasReader, hy, hyreader]

theorem receive (hd : Listed d) (i : Nat) : Listed (d.receive i).1 := by
  unfold Dispatcher.receive
  split
  . next feed _ =>
    split
    . split
      . next c v _ =>
        have hchannels : Listed { d with channels := d.channels.set feed c } := hd.still rfl rfl
        exact hchannels.dispatch v
      . exact hd
    . exact hd
  . exact hd

theorem release (hd : Listed d) : Listed d.release := by
  -- whoever had both ends was registered, and all registered ones lose their source
  intro k x hx hsource hreader
  have hslots := getElem?_foldl_modify (fun s : Slot α => { s with hasSource := false })
    (fun _ => rfl) d.registered d.slots k
  rw [Dispatcher.release, hslots] at hx
  split at hx
  . obtain ⟨y, _, rfl⟩ := Option.map_eq_some_iff.1 hx
    simp at hsource
  . next hnot =>
    obtain ⟨id, hid⟩ := hd k x hx hsource hreader
    exact absurd ⟨_, hid, rfl⟩ hnot

theorem step (hd : Listed d) (a : DispatcherAction α) : Listed (d.step a).1 := by
  cases a with
  | subscribe => exact hd.subscribe
  | unsubscribe i => exact hd.unsubscribe i
  | poll i => exact hd.poll i
  | receive i => exact hd.receive i
  | acquire i =>
    simp only [Dispatcher.step, Dispatcher.acquire]
    split
    . split <;> exact hd.still rfl rfl
    . exact hd
  | opened i r =>
    simp only [Dispatcher.step, Dispatcher.opened]
    split
    . cases r <;> exact hd.still rfl rfl
    . exact hd
  | finish i =>
    simp only [Dispatcher.step, Dispatcher.finish]
    split
    . split
      . exact hd.still rfl rfl
      . exact hd
    . exact hd
  | clear i =>
    simp only [Dispatcher.step, Dispatcher.clear]
    split
    . exact hd.release.still rfl rfl
    . exact hd
  | drop i =>
    simp only [Dispatcher.step, Dispatcher.drop]
    split
    . exact hd.still rfl rfl
    . have hhandles : Listed { d with handles := d.handles.set i false } := hd.still rfl rfl
      exact hhandles.release
  | start | makeChannel | send | dropSender | clone => exact hd.still rfl rfl

end Listed

end Dispatcher

namespace Scene

/--
What a scene does to its dispatcher is one of the actions of the dispatcher, but for the channels,
which the source shares with it.
-/
theorem step_dispatcher (s : Scene) (a : SceneAction) :
    ∃ d, (d = s.dispatcher ∨ ∃ a', d = (s.dispatcher.step a').1) ∧
      ∃ channels, (s.step a).1.dispatcher = { d with channels } := by
  cases a with
  | dispatcher a => exact ⟨_, Or.inr ⟨a, rfl⟩, _, rfl⟩
  | file a => exact ⟨_, Or.inl rfl, _, rfl⟩
  | openFile start call =>
    simp only [step]
    split
    . next r _ => exact ⟨_, Or.inr ⟨.opened start r, rfl⟩, _, rfl⟩
    . exact ⟨_, Or.inl rfl, _, rfl⟩
  | renew items =>
    simp only [step, renew]
    split
    . exact ⟨_, Or.inl rfl, _, rfl⟩
    . exact ⟨_, Or.inl rfl, _, rfl⟩
  | bind b => exact ⟨_, Or.inl rfl, _, rfl⟩
  | apply i r =>
    simp only [step, apply]
    split <;> exact ⟨_, Or.inl rfl, _, rfl⟩
  | follow i k => exact ⟨_, Or.inl rfl, _, rfl⟩
  | turn i =>
    simp only [step, turn]
    split
    . next slot _ =>
      split
      . next d _ b hpoll _ =>
        have hd : d = (s.dispatcher.step (.poll slot)).1 := (congrArg Prod.fst hpoll).symm
        exact ⟨d, Or.inr ⟨_, hd⟩, _, rfl⟩
      . exact ⟨_, Or.inr ⟨.unsubscribe slot, rfl⟩, _, rfl⟩
      . exact ⟨_, Or.inl rfl, _, rfl⟩
    . exact ⟨_, Or.inl rfl, _, rfl⟩

theorem preserved_of_dispatcher (P : Dispatcher Response → Prop)
    (hstep : ∀ d a, P d → P (d.step a).1) (hchannels : ∀ d channels, P d → P { d with channels })
    (s : Scene) (a : SceneAction) (hs : P s.dispatcher) : P (s.step a).1.dispatcher := by
  obtain ⟨d, hd, channels, heq⟩ := s.step_dispatcher a
  rw [heq]
  apply hchannels
  rcases hd with rfl | ⟨a', rfl⟩
  . exact hs
  . exact hstep _ a' hs

theorem oneLoop_step (s : Scene) (a : SceneAction) (hs : s.dispatcher.OneLoop) :
    (s.step a).1.dispatcher.OneLoop :=
  preserved_of_dispatcher _ (fun _ a hd => hd.step a) (fun _ _ hd => hd.still rfl rfl rfl rfl) s a hs

theorem listed_step (s : Scene) (a : SceneAction) (hs : s.dispatcher.Listed) :
    (s.step a).1.dispatcher.Listed :=
  preserved_of_dispatcher _ (fun _ a hd => hd.step a) (fun _ _ hd => hd.still rfl rfl) s a hs

theorem oneLoop_and_listed_of_run (key : String) (as : List SceneAction) :
    ((Scene.start key).run as).dispatcher.OneLoop ∧
      ((Scene.start key).run as).dispatcher.Listed :=
  Run.invariant_of_step (fun (s : Scene) a => (s.step a).1) (fun _ _ => ([] : List Unit))
    (fun s _ => s.dispatcher.OneLoop ∧ s.dispatcher.Listed)
    (fun s _ a hs => ⟨s.oneLoop_step a hs.1, s.listed_step a hs.2⟩) as (Scene.start key) []
    ⟨.make key, .make key⟩

end Scene

end Upkeep.Config
