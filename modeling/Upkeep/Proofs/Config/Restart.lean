import Upkeep.Proofs.Config.Lifecycle

/-!
This module contains what comes of a start that gets its turn after the sender of the feed is gone.
It opens a feed if the loop is gone. If the loop still has to see the end, the start does nothing,
and the end comes after it.
-/

namespace Upkeep.Config

theorem Channel.hasSender_send (c : Channel α) (x : α) : (c.send x).1.hasSender = c.hasSender := by
  unfold send
  split
  . rfl
  . split <;> rfl

namespace Dispatcher

variable {d next : Dispatcher α} {a : DispatcherAction α} {ms : List (Occurrence α)}
variable {i feed : Nat}

/--
Whether the sender of a feed is gone.
-/
def LacksSender (d : Dispatcher α) (feed : Nat) : Prop :=
  ∃ c, d.channels[feed]? = some c ∧ c.hasSender = false

namespace LacksSender

theorem of_isExhausted (hx : d.isExhausted feed = true) (hlt : feed < d.channels.length) :
    LacksSender d feed := by
  have hc := List.getElem?_eq_getElem hlt
  simp only [isExhausted, hc, Option.all_some, Bool.and_eq_true, Bool.not_eq_true'] at hx
  exact ⟨_, hc, hx.2⟩

theorem modify (hd : LacksSender d feed) (k : Nat) (f : Channel α → Channel α)
    (hf : ∀ c, c.hasSender = false → (f c).hasSender = false)
    (hchannels : next.channels = d.channels.modify k f) : LacksSender next feed := by
  obtain ⟨c, hc, hsender⟩ := hd
  rw [LacksSender, hchannels, List.getElem?_modify, hc]
  by_cases hk : k = feed
  . exact ⟨f c, by simp [hk], hf c hsender⟩
  . exact ⟨c, by simp [hk], hsender⟩

theorem step (hd : LacksSender d feed) (he : d.Effect a next ms) : LacksSender next feed := by
  cases he with
  | makeChannel n =>
    obtain ⟨c, hc, hsender⟩ := hd
    have hlt := (List.getElem?_eq_some_iff.1 hc).1
    exact ⟨c, (List.getElem?_append_left hlt).trans hc, hsender⟩
  | send k x => exact hd.modify k _ (fun c hc => (c.hasSender_send x).trans hc) rfl
  | dropSender k => exact hd.modify k _ (fun _ _ => rfl) rfl
  | receive j k c x rest hl hc hq =>
    have hchannels := modify_eq_set hc fun c => { c with queue := rest }
    exact hd.modify k (fun c => { c with queue := rest }) (fun _ hc => hc) hchannels.symm
  | clear j k => exact hd.modify k Channel.dropReceiver (fun _ hc => hc) rfl
  | _ => exact hd

end LacksSender

/--
Whether a loop takes values out of a feed.
-/
structure Runs (d : Dispatcher α) (i feed : Nat) : Prop where
  running : d.loops[i]? = some ⟨feed, .running⟩
  known : feed < d.channels.length

namespace Runs

theorem still (hd : Runs d i feed) (hloops : next.loops = d.loops)
    (hchannels : d.channels.length ≤ next.channels.length) : Runs next i feed :=
  ⟨hloops ▸ hd.running, Nat.lt_of_lt_of_le hd.known hchannels⟩

theorem of_set (hd : Runs d i feed) {j : Nat} {l l' : Loop} (hl : d.loops[j]? = some l)
    (hne : l ≠ ⟨feed, .running⟩) (hloops : next.loops = d.loops.set j l')
    (hchannels : d.channels.length ≤ next.channels.length) : Runs next i feed := by
  refine ⟨?_, Nat.lt_of_lt_of_le hd.known hchannels⟩
  rw [hloops, getElem?_set_of_getElem? hl]
  split
  . next hj =>
    rw [← hj, hd.running, Option.some.injEq] at hl
    exact absurd hl.symm hne
  . exact hd.running

theorem step (hd : Runs d i feed) (he : d.Effect a next ms) :
    Runs next i feed ∨ LacksSender next feed := by
  cases he with
  | succeed j feed' ho =>
    have hlt := (List.getElem?_eq_some_iff.1 hd.running).1
    exact .inl ⟨(List.getElem?_append_left hlt).trans hd.running, hd.known⟩
  | finish j feed' hl hx =>
    by_cases hfeed : feed' = feed
    . subst hfeed
      exact .inr (.of_isExhausted hx hd.known)
    . exact .inl (hd.of_set hl (by simp [hfeed]) rfl (Nat.le_refl _))
  | clear j feed' hl hh => exact .inl (hd.of_set hl (by simp) rfl (by simp))
  | receive j feed' c x rest =>
    have hlength : d.channels.length ≤ (d.channels.set feed' { c with queue := rest }).length := by
      simp
    exact .inl (hd.still rfl hlength)
  | makeChannel | send | dropSender => exact .inl (hd.still rfl (by simp))
  | _ => exact .inl (hd.still rfl (Nat.le_refl _))

theorem run (hd : Runs d i feed) (hone : OneLoop d) (as : List (DispatcherAction α)) :
    Runs (d.run as) i feed ∨ LacksSender (d.run as) feed := by
  have hrun := run_invariant (fun _ => True) (fun d _ => Runs d i feed ∨ LacksSender d feed)
    (fun d _ a next ms _ _ he hd => hd.elim (·.step he) fun hlacks => .inr (hlacks.step he)) as d
    hone (.inl hd) (fun _ _ => trivial)
  exact hrun.2

end Runs

/--
Whether there was a loop, and none that is still there takes values out of another feed.
-/
structure OnlyFrom (d : Dispatcher α) (feed : Nat) : Prop where
  loops : d.loops ≠ []
  only : ∀ l ∈ d.loops, l.phase ≠ .gone → l.feed = feed

namespace OnlyFrom

theorem of_mem (hone : OneLoop d) {l : Loop} (hl : l ∈ d.loops) (halive : l.phase ≠ .gone) :
    OnlyFrom d l.feed := by
  refine ⟨List.ne_nil_of_mem hl, ?_⟩
  intro l' hl' halive'
  obtain ⟨j, hj⟩ := List.mem_iff_getElem?.1 hl
  obtain ⟨k, hk⟩ := List.mem_iff_getElem?.1 hl'
  rw [hone.single k j l' l hk hj halive' halive, hj, Option.some.injEq] at hk
  rw [hk]

theorem of_set (hd : OnlyFrom d feed) {j : Nat} {l : Loop} (hl : d.loops[j]? = some l)
    (halive : l.phase ≠ .gone) (phase : LoopPhase)
    (hloops : next.loops = d.loops.set j ⟨l.feed, phase⟩) : OnlyFrom next feed := by
  constructor
  . simpa [hloops] using hd.loops
  . intro l' hl' halive'
    rw [hloops] at hl'
    rcases List.mem_or_eq_of_mem_set hl' with hold | heq
    . exact hd.only l' hold halive'
    . rw [heq]
      exact hd.only l (List.mem_of_getElem? hl) halive

theorem step (hd : OnlyFrom d feed) (he : d.Effect a next ms)
    (ha : ∀ j k, a ≠ .opened j (.ok k)) : OnlyFrom next feed := by
  cases he with
  | succeed j k => exact absurd rfl (ha j k)
  | finish j k hl => exact hd.of_set hl (by simp) .ending rfl
  | clear j k hl => exact hd.of_set hl (by simp) .gone rfl
  | _ => exact ⟨hd.loops, hd.only⟩

end OnlyFrom

/--
Whether no loop has anything left to do: each is gone, or waits for a value that may still come.
-/
def IsSettled (d : Dispatcher α) : Prop :=
  ∀ l ∈ d.loops, l.phase = .gone ∨ l.phase = .running ∧
    ∃ c, d.channels[l.feed]? = some c ∧ c.queue = [] ∧ c.hasSender = true

theorem opening_step (ho : d.starts[i]? = some .opening) (he : d.Effect a next ms)
    (ha : ∀ r, a ≠ .opened i r) : next.starts[i]? = some .opening := by
  have hset : ∀ {j : Nat} {st : Start} (st'), d.starts[j]? = some st → j ≠ i →
      (d.starts.set j st')[i]? = some .opening := by
    intro j st st' hj hne
    exact (List.getElem?_set_ne hne).trans ho
  cases he with
  | start => exact (List.getElem?_append_left (List.getElem?_eq_some_iff.1 ho).1).trans ho
  | decline j hw | begin j hw =>
    refine hset _ hw ?_
    rintro rfl
    simp [ho] at hw
  | succeed j k hj | fail j e hj =>
    refine hset _ hj ?_
    rintro rfl
    exact ha _ rfl
  | _ => exact ho

theorem opening_run (ho : d.starts[i]? = some .opening) (hone : OneLoop d)
    (as : List (DispatcherAction α)) (has : ∀ r, .opened i r ∉ as) :
    (d.run as).starts[i]? = some .opening := by
  have hrun := run_invariant (fun a => ∀ r, a ≠ .opened i r)
    (fun d _ => d.starts[i]? = some .opening)
    (fun d _ a next ms ha _ he ho => opening_step ho he ha) as d hone ho
    (fun a ha r heq => has r (heq ▸ ha))
  exact hrun.2

/--
Once a feed is open, a loop takes values out of it for as long as its sender is there.
-/
theorem running_of_opened (hone : OneLoop d) (hlives : Lives d)
    (ho : d.starts[i]? = some .opening) (hfeed : feed < d.channels.length)
    (as : List (DispatcherAction α)) :
    let last := (d.step (.opened i (.ok feed))).1.run as
    ∀ c, last.channels[feed]? = some c → c.hasSender = true →
      last.loops[d.loops.length]? = some ⟨feed, .running⟩ ∧ last.started = true ∧
      last.ended = false := by
  intro last c hc hsender
  have hruns : Runs (d.step (.opened i (.ok feed))).1 d.loops.length feed := by
    simp only [step, opened, ho]
    exact ⟨List.getElem?_concat_length, hfeed⟩
  obtain ⟨hlast, hlivesl⟩ : OneLoop last ∧ Lives last :=
    (hlives.step (d.step_effect _)).run (hone.step _) as
  have hrunning : Runs last d.loops.length feed := by
    rcases hruns.run (hone.step _) as with hrunning | ⟨c', hc', hnone⟩
    . exact hrunning
    . rw [hc, Option.some.injEq] at hc'
      simp [← hc', hsender] at hnone
  have hstarted : last.started = true := by
    rw [hlivesl.started_iff hlast]
    exact ⟨_, List.mem_of_getElem? hrunning.running, by simp⟩
  refine ⟨hrunning.running, hstarted, ?_⟩
  cases hended : last.ended with
  | false => rfl
  | true => simp [(hlivesl.ended.1 hended).1] at hstarted

theorem ended_of_settled (hd : OnlyFrom d feed) (hlives : Lives d) (hlacks : LacksSender d feed)
    (hsettled : IsSettled d) : d.ended = true ∧ ∀ l ∈ d.loops, l.phase = .gone := by
  have hgone : ∀ l ∈ d.loops, l.phase = .gone := by
    intro l hl
    rcases hsettled l hl with hgone | ⟨hrunning, c, hc, -, hsender⟩
    . exact hgone
    . obtain ⟨c', hc', hnone⟩ := hlacks
      rw [hd.only l hl (by simp [hrunning]), hc', Option.some.injEq] at hc
      rw [hc, hsender] at hnone
      exact absurd hnone (by simp)
  exact ⟨hlives.ended.2 ⟨hlives.started_of_gone hgone, hd.loops⟩, hgone⟩

/--
When the sender of the only feed is gone and no other is opened, the dispatcher ends.
-/
theorem ended_of_lacksSender (hd : OnlyFrom d feed) (hone : OneLoop d) (hlives : Lives d)
    (hlacks : LacksSender d feed) (as : List (DispatcherAction α))
    (has : ∀ j k, .opened j (.ok k) ∉ as) (hsettled : IsSettled (d.run as)) :
    (d.run as).ended = true ∧ ∀ l ∈ (d.run as).loops, l.phase = .gone := by
  have hrun := run_invariant (fun a => ∀ j k, a ≠ .opened j (.ok k))
    (fun d _ => OnlyFrom d feed ∧ Lives d ∧ LacksSender d feed)
    (fun d _ a next ms ha _ he hd => ⟨hd.1.step he ha, hd.2.1.step he, hd.2.2.step he⟩) as d
    hone ⟨hd, hlives, hlacks⟩ (fun a ha j k heq => has j k (heq ▸ ha))
  obtain ⟨-, hlast, hliveslast, hlackslast⟩ := hrun
  exact ended_of_settled hlast hliveslast hlackslast hsettled

/--
A start gets its turn. If all loops are gone it opens a feed, and once that is open, a loop takes
values out of it for as long as its sender is there, whatever happens. If a loop is still there, the
start answers that all is well without opening a feed, also when the sender of that loop's feed is
gone by then; in that case, whenever all has settled, the dispatcher has ended, unless a later start
has opened a feed.
-/
theorem start_after_end (key : String) (as : List (DispatcherAction α)) (i : Nat)
    (hw : ((make key).run as).starts[i]? = some .waiting)
    (hh : ((make key).run as).holder = none) :
    let d := (make key).run as
    let next := (d.step (.acquire i)).1
    ((∀ l ∈ d.loops, l.phase = .gone) → ∀ bs, (∀ r, .opened i r ∉ bs) →
      let last := next.run bs
      last.starts[i]? = some .opening ∧ ∀ feed < last.channels.length,
        let fed := (last.step (.opened i (.ok feed))).1
        fed.starts[i]? = some (.done true (.ok ())) ∧
        ∀ cs c, (fed.run cs).channels[feed]? = some c → c.hasSender = true →
          (fed.run cs).loops[last.loops.length]? = some ⟨feed, .running⟩ ∧
          (fed.run cs).started = true ∧ (fed.run cs).ended = false) ∧
    ∀ l ∈ d.loops, l.phase ≠ .gone →
      next.starts[i]? = some (.done false (.ok ())) ∧
      (LacksSender d l.feed → ∀ bs, (∀ j feed, .opened j (.ok feed) ∉ bs) →
        IsSettled (next.run bs) →
        (next.run bs).ended = true ∧ ∀ l ∈ (next.run bs).loops, l.phase = .gone) := by
  intro d next
  obtain ⟨hone, hlives⟩ : OneLoop d ∧ Lives d := (Lives.make key).run (.make key) as
  have hlt := (List.getElem?_eq_some_iff.1 hw).1
  have honen : OneLoop next := hone.step _
  have hlivesn : Lives next := hlives.step (d.step_effect _)
  refine ⟨?_, ?_⟩
  . intro hgone bs hbs last
    have hidle : IsIdle d := ⟨hh, hlives.started_of_gone hgone⟩
    have hopening : next.starts[i]? = some .opening := by
      simp only [next, hidle.acquire hw]
      exact List.getElem?_set_self hlt
    have hlast : last.starts[i]? = some .opening := opening_run hopening honen bs hbs
    obtain ⟨honel, hlivesl⟩ := hlivesn.run honen bs
    refine ⟨hlast, ?_⟩
    intro feed hfeed fed
    refine ⟨?_, running_of_opened honel hlivesl hlast hfeed⟩
    simp only [fed, step, opened, hlast]
    exact List.getElem?_set_self (List.getElem?_eq_some_iff.1 hlast).1
  . intro l hl halive
    have hstarted : d.started = true := (hlives.started_iff hone).2 ⟨l, hl, halive⟩
    have hdone : next.starts[i]? = some (.done false (.ok ())) := by
      simp only [next, d, step, acquire, hw, hh, hstarted, if_true]
      exact List.getElem?_set_self hlt
    refine ⟨hdone, ?_⟩
    intro hlacks bs hbs hsettled
    have hacquire := d.step_effect (.acquire i)
    have honly : OnlyFrom next l.feed := (OnlyFrom.of_mem hone hl halive).step hacquire (by simp)
    exact ended_of_lacksSender honly honen hlivesn (hlacks.step hacquire) bs hbs hsettled

/--
A start that gets its turn between the end of the feed and the last turns of the loop.
-/
def lateStart : List (DispatcherAction Nat) :=
  [.makeChannel 1, .start, .acquire 0, .opened 0 (.ok 0), .dropSender 0, .start]

/--
Such a start answers that all is well, although nothing will come out of the feed any more. No feed
is opened, and the dispatcher ends.
-/
theorem start_before_clearing_is_lost :
    let d := (make "flags").run lateStart
    let next := (d.step (.acquire 1)).1
    let last := next.run [.finish 0, .clear 0]
    d.isExhausted 0 = true ∧ next.starts[1]? = some (.done false (.ok ())) ∧
      last.starts[1]? = some (.done false (.ok ())) ∧ last.ended = true ∧
      last.loops = [⟨0, .gone⟩] :=
  ⟨rfl, rfl, rfl, rfl, rfl⟩

/--
The start of `lateStart` before the loop has seen the end, and the same start when the loop is gone.
-/
theorem start_before_and_after_clearing :
    let next := (((make "flags").run lateStart).step (.acquire 1)).1
    let last := (make "flags").run (lateStart ++ [.finish 0, .clear 0, .acquire 1, .makeChannel 1])
    let fed := (last.step (.opened 1 (.ok 1))).1
    (next.starts[1]? = some (.done false (.ok ())) ∧
      (next.run [.finish 0, .clear 0]).ended = true) ∧
    last.starts[1]? = some .opening ∧
      (fed.run [.send 1 7, .receive 1]).loops[1]? = some ⟨1, .running⟩ := by
  have hbefore := start_after_end "flags" lateStart 1 rfl rfl
  have hafter := start_after_end "flags" (lateStart ++ [.finish 0, .clear 0]) 1 rfl rfl
  refine ⟨?_, ?_⟩
  . obtain ⟨hdone, hends⟩ := hbefore.2 ⟨0, .running⟩ (List.mem_cons_self ..) (by simp)
    refine ⟨hdone, (hends ⟨_, rfl, rfl⟩ [.finish 0, .clear 0] (by simp) ?_).1⟩
    exact List.forall_mem_singleton.2 (.inl rfl)
  . obtain ⟨hopening, hfeeds⟩ :=
      hafter.1 (List.forall_mem_singleton.2 rfl) [.makeChannel 1] (by simp)
    exact ⟨hopening, ((hfeeds 1 (by decide)).2 [.send 1 7, .receive 1] _ rfl rfl).1⟩

end Dispatcher

end Upkeep.Config
