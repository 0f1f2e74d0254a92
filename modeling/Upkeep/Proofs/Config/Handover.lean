import Upkeep.Proofs.Config.Abreast
import Upkeep.Proofs.Config.Follow
import Upkeep.Proofs.Config.Restart
import Upkeep.Proofs.Config.Supply

/-!
This module contains what a scene does to its source and to its dispatcher at once: the watcher of a
file hands its news to a channel, which waits for a start of the dispatcher and is its feed after
that.
-/

namespace Upkeep.Config

namespace Dispatcher

variable {d next : Dispatcher α} {a : DispatcherAction α} {ms : List (Occurrence α)} {feed : Nat}

/--
Whether an action leaves it to others to send into a feed and to end it.
-/
def Leaves (feed : Nat) : DispatcherAction α → Prop
  | .send i _ | .dropSender i => i ≠ feed
  | _ => True

theorem channel_step (he : d.Effect a next ms) (ha : Leaves feed a)
    (hquiet : ∀ i : Nat, d.loops[i]? ≠ some ⟨feed, .ending⟩) {c : Channel α}
    (hc : d.channels[feed]? = some c) :
    ∃ c', next.channels[feed]? = some c' ∧ c'.hasSender = c.hasSender ∧
      c'.hasReceiver = c.hasReceiver ∧ ((∀ i, a ≠ .receive i) → c'.queue = c.queue) := by
  have hlt := (List.getElem?_eq_some_iff.1 hc).1
  cases he with
  | makeChannel n =>
    exact ⟨c, (List.getElem?_append_left hlt).trans hc, rfl, rfl, fun _ => rfl⟩
  | send i x | dropSender i =>
    have hi : i ≠ feed := ha
    refine ⟨c, ?_, rfl, rfl, fun _ => rfl⟩
    simp [hi, hc]
  | receive i k c₀ x rest hl hk hq =>
    by_cases hfeed : k = feed
    . subst hfeed
      rw [hc, Option.some.injEq] at hk
      subst hk
      refine ⟨_, List.getElem?_set_self hlt, rfl, rfl, ?_⟩
      intro hnot
      exact absurd rfl (hnot i)
    . exact ⟨c, (List.getElem?_set_ne hfeed).trans hc, rfl, rfl, fun _ => rfl⟩
  | clear i k hl hh =>
    have hk : k ≠ feed := by
      rintro rfl
      exact hquiet i hl
    refine ⟨c, ?_, rfl, rfl, fun _ => rfl⟩
    simp [hk, hc]
  | _ => exact ⟨c, hc, rfl, rfl, fun _ => rfl⟩

theorem length_channels_step (he : d.Effect a next ms) :
    d.channels.length ≤ next.channels.length := by
  cases he with
  | makeChannel n => simp
  | send i x | dropSender i => simp
  | receive i k c₀ x rest hl hk hq => simp [dispatch]
  | clear i k hl hh => simp
  | _ => exact Nat.le_refl _

end Dispatcher

namespace FileSource

variable {key : String} {feed : Nat} {s : FileState} {w w' : FileSource} {h : List Delivery}

theorem Supplies.of_channel (hw : w.Supplies key feed s h) (hwatchers : w'.watchers = w.watchers)
    (hchannel : ∃ c, w'.channels[feed]? = some c ∧ c.hasSender = true ∧ c.hasReceiver = true) :
    w'.Supplies key feed s h := by
  refine ⟨hchannel, ?_, ?_⟩
  . rw [hwatchers]
    exact hw.watcher
  . rw [hwatchers]
    exact hw.members

end FileSource

namespace Scene

/--
The source of a scene with the channels that it sends to.
-/
def source (s : Scene) : FileSource := { s.files with channels := s.channels }

theorem source_of_still {s next : Scene} (hfiles : next.files = s.files)
    (hdispatcher : next.dispatcher = s.dispatcher) : next.source = s.source := by
  rw [source, source, channels, channels, hfiles, hdispatcher]

/--
What an action asks of the dispatcher.
-/
inductive Asks (s : Scene) : SceneAction → DispatcherAction Response → Prop where
  | dispatcher (b : DispatcherAction Response) : Asks s (.dispatcher b) b
  | openFile (start call : Nat) (r : Except ConfigError Nat)
    (hr : s.files.channel? call = some r) : Asks s (.openFile start call) (.opened start r)
  | look (i slot : Nat) : Asks s (.turn i) (.poll slot)
  | leave (i slot : Nat) : Asks s (.turn i) (.unsubscribe slot)

/--
What an action does to the source and the dispatcher of a scene.
-/
inductive Effect (s : Scene) : SceneAction → Scene → Prop where
  | still (a : SceneAction) (next : Scene) (hfile : ∀ b, a ≠ .file b)
    (hfiles : next.files = s.files) (hdispatcher : next.dispatcher = s.dispatcher) :
    Effect s a next
  | ask (a : SceneAction) (b : DispatcherAction Response) (next : Scene) (hask : s.Asks a b)
    (hfiles : next.files = s.files) (hdispatcher : next.dispatcher = (s.dispatcher.step b).1) :
    Effect s a next
  | file (b : FileAction) (next : Scene) (hsource : next.source = (s.source.step b).1)
    (hdispatcher : ∃ channels, next.dispatcher = { s.dispatcher with channels }) :
    Effect s (.file b) next
  | renew (items : Dict String String) (next : Scene) (hwatchers : next.files.watchers = .empty)
    (hcalls : next.files.calls = []) : Effect s (.renew items) next

theorem turn_effect (s : Scene) (i : Nat) : s.Effect (.turn i) (s.step (.turn i)).1 := by
  simp only [step, turn]
  split
  . next binding slot hi =>
    split
    . next d r b hpoll hb =>
      exact .ask _ (.poll slot) _ (.look i slot) rfl (congrArg Prod.fst hpoll).symm
    . exact .ask _ (.unsubscribe slot) _ (.leave i slot) rfl rfl
    . exact .still _ _ (by simp) rfl rfl
  . exact .still _ _ (by simp) rfl rfl

theorem step_effect (s : Scene) (a : SceneAction) : s.Effect a (s.step a).1 := by
  cases a with
  | dispatcher b => exact .ask _ b _ (.dispatcher b) rfl rfl
  | file b => exact .file b _ rfl ⟨_, rfl⟩
  | openFile start call =>
    simp only [step]
    split
    . next r hr => exact .ask _ _ _ (.openFile start call r hr) rfl rfl
    . exact .still _ _ (by simp) rfl rfl
  | renew items =>
    simp only [step, renew]
    split
    . exact .renew items _ rfl rfl
    . exact .still _ _ (by simp) rfl rfl
  | bind b => exact .still _ _ (by simp) rfl rfl
  | apply i r =>
    simp only [step, apply]
    split <;> exact .still _ _ (by simp) rfl rfl
  | follow i k => exact .still _ _ (by simp) rfl rfl
  | turn i => exact s.turn_effect i

end Scene

/--
Whether an action leaves it to the watcher of a file to send into a feed, to the loop of the
dispatcher to take values out of it, and to nobody to end it.
-/
def SceneAction.Leaves (feed : Nat) : SceneAction → Prop
  | .dispatcher b => Dispatcher.Leaves feed b
  | .file .drop | .renew _ => False
  | .file b => b.Spares feed
  | _ => True

namespace Scene

variable {s : Scene} {a : SceneAction} {key : String} {feed : Nat}

/--
What the watcher of a key hands to a channel of its hub in an action.
-/
def deliveries (key : String) (feed : Nat) (s : Scene) : SceneAction → List Delivery
  | .file b => s.source.deliveries key feed b
  | _ => []

theorem deliveries_of_not_file (hfile : ∀ b, a ≠ .file b) : s.deliveries key feed a = [] := by
  cases a with
  | file b => exact absurd rfl (hfile b)
  | _ => rfl

theorem Asks.not_file {b : DispatcherAction Response} (hask : s.Asks a b) (c : FileAction) :
    a ≠ .file c := by
  cases hask <;> simp

theorem Asks.leaves {b : DispatcherAction Response} (hask : s.Asks a b) (ha : a.Leaves feed) :
    Dispatcher.Leaves feed b := by
  cases hask with
  | dispatcher b => exact ha
  | _ => trivial

theorem Asks.ne_receive {b : DispatcherAction Response} (hask : s.Asks a b)
    (ha : ∀ i, a ≠ .dispatcher (.receive i)) (i : Nat) : b ≠ .receive i := by
  cases hask with
  | dispatcher b =>
    rintro rfl
    exact ha i rfl
  | _ => simp

theorem supplies_step {x : FileState} {h : List Delivery} (hs : s.source.Supplies key feed x h)
    (hquiet : ∀ i : Nat, s.dispatcher.loops[i]? ≠ some ⟨feed, .ending⟩) (ha : a.Leaves feed) :
    (s.step a).1.source.Supplies key feed x (h ++ s.deliveries key feed a) ∧
      ((∀ i, a ≠ .dispatcher (.receive i)) →
        queueAt (s.step a).1.channels feed =
          queueAt s.channels feed ++ arrived (s.deliveries key feed a)) := by
  obtain ⟨c, hc, hsender, hreceiver⟩ := hs.channel
  have hqueue : queueAt s.channels feed = c.queue := by
    rw [queueAt, show s.channels[feed]? = some c from hc]
    rfl
  have heffect := s.step_effect a
  generalize (s.step a).1 = next at heffect ⊢
  cases heffect with
  | still a next hfile hfiles hdispatcher =>
    rw [deliveries_of_not_file hfile, source_of_still hfiles hdispatcher, List.append_nil]
    refine ⟨hs, ?_⟩
    intro _
    rw [channels, hdispatcher, arrived, List.filter_nil, List.map_nil, List.append_nil]
    rfl
  | ask a b next hask hfiles hdispatcher =>
    obtain ⟨c', hc', hsender', hreceiver', hqueue'⟩ :=
      Dispatcher.channel_step (s.dispatcher.step_effect b) (hask.leaves ha) hquiet hc
    have hchannel : next.channels[feed]? = some c' := by
      rw [channels, hdispatcher]
      exact hc'
    rw [deliveries_of_not_file hask.not_file, List.append_nil]
    refine ⟨hs.of_channel ?_ ⟨c', hchannel, ?_, ?_⟩, ?_⟩
    . show next.files.watchers = s.files.watchers
      rw [hfiles]
    . exact hsender'.trans hsender
    . exact hreceiver'.trans hreceiver
    . intro hreceive
      rw [queueAt, hchannel, hqueue, Option.map_some, Option.getD_some,
        hqueue' (hask.ne_receive hreceive), arrived, List.filter_nil, List.map_nil, List.append_nil]
  | file b next hsource hdispatcher =>
    have hdrop : b ≠ .drop := by
      rintro rfl
      exact ha
    have hspares : b.Spares feed := by
      cases b with
      | drop => exact ha.elim
      | _ => exact ha
    rw [hsource]
    refine ⟨hs.step hspares hdrop, ?_⟩
    intro _
    have hchannels : next.channels = (s.source.step b).1.channels :=
      congrArg FileSource.channels hsource
    rw [queueAt, hchannels, hs.channel_step hspares hdrop hc hreceiver, hqueue]
    rfl
  | renew items next => exact ha.elim

/--
Whether the watcher of a key is told of what an action does to its file.
-/
def Announces (key : String) (s : Scene) : SceneAction → Prop
  | .file b => s.source.Announces key b
  | _ => True

instance (key : String) (s : Scene) : (a : SceneAction) → Decidable (s.Announces key a)
  | .file b => inferInstanceAs (Decidable (s.source.Announces key b))
  | .dispatcher _ | .openFile .. | .renew _ | .bind _ | .apply .. | .follow .. | .turn _ =>
    inferInstanceAs (Decidable True)

/--
Whether the watcher of a key gets to know its file by an action.
-/
def sightings (key : String) (s : Scene) : SceneAction → List Bool
  | .file b => s.source.sightings key b
  | _ => []

theorem sightings_of_not_file (hfile : ∀ b, a ≠ .file b) : s.sightings key a = [] := by
  cases a with
  | file b => exact absurd rfl (hfile b)
  | _ => rfl

/--
What holds of the source of a scene at all times: its hubs have channels that there are, its paths
are those of its items, and the watcher of a key is abreast of its file.
-/
structure Watched (key : String) (s : Scene) (h : List Bool) : Prop where
  members : s.source.MembersExist
  mapped : s.source.Mapped
  follows : s.source.Follows key h

theorem Watched.step {h : List Bool} (hs : s.Watched key h) (ha : s.Announces key a) :
    (s.step a).1.Watched key (h ++ s.sightings key a) := by
  have heffect := s.step_effect a
  generalize (s.step a).1 = next at heffect ⊢
  cases heffect with
  | still a next hfile hfiles hdispatcher =>
    have hsource := source_of_still hfiles hdispatcher
    rw [sightings_of_not_file hfile, List.append_nil]
    exact ⟨hsource ▸ hs.members, hsource ▸ hs.mapped, hsource ▸ hs.follows⟩
  | ask a b next hask hfiles hdispatcher =>
    have hsource : next.source = { s.source with channels := next.channels } := by
      rw [source, source, hfiles]
    have hlength : s.channels.length ≤ next.channels.length := by
      rw [channels, channels, hdispatcher]
      exact Dispatcher.length_channels_step (s.dispatcher.step_effect b)
    rw [sightings_of_not_file hask.not_file, List.append_nil]
    refine ⟨?_, ?_, ?_⟩
    . rw [hsource]
      intro k x hx i hi
      exact Nat.lt_of_lt_of_le (hs.members k x hx i hi) hlength
    . rw [hsource]
      exact ⟨hs.mapped.calls, hs.mapped.watchers⟩
    . rw [hsource]
      exact hs.follows
  | file b next hsource hdispatcher =>
    exact ⟨hsource ▸ hs.members.step b, hsource ▸ hs.mapped.step b, hsource ▸ hs.follows.step ha⟩
  | renew items next hwatchers hcalls =>
    have hnone : ∀ k, next.source.watchers.get? k = none := by
      intro k
      show next.files.watchers.get? k = none
      rw [hwatchers]
      rfl
    refine ⟨?_, ⟨?_, ?_⟩, .of_none (hnone key)⟩
    . intro k x hx
      rw [hnone] at hx
      cases hx
    . intro i k path r hi
      have hi : next.files.calls[i]? = some (.watchRead k path r) := hi
      rw [hcalls] at hi
      cases hi
    . intro k x hx
      rw [hnone] at hx
      cases hx

theorem Watched.start (key name : String) : (Scene.start name).Watched key [] := by
  refine ⟨?_, ⟨?_, ?_⟩, .of_none rfl⟩
  . intro k x hx
    cases hx
  . intro i k path r hi
    cases hi
  . intro k x hx
    cases hx

theorem Watched.run (as : List SceneAction)
    (has : Run.Obeys (fun (s : Scene) a => (s.step a).1) (Announces key) (Scene.start key) as) :
    ((Scene.start key).run as).Watched key
      (Run.history (fun (s : Scene) a => (s.step a).1) (sightings key) (Scene.start key) as) :=
  Run.invariant (fun (s : Scene) a => (s.step a).1) (sightings key) (Announces key) (Watched key)
    (fun _ _ _ ha hs => hs.step ha) as (Scene.start key) [] (.start key key) has

theorem loop_step {loop : Nat} (hloop : s.dispatcher.loops[loop]? = some ⟨feed, .running⟩)
    (hknown : feed < s.dispatcher.channels.length) (ha : a.Leaves feed)
    (hsender : ¬ Dispatcher.LacksSender (s.step a).1.dispatcher feed) :
    (s.step a).1.dispatcher.loops[loop]? = some ⟨feed, .running⟩ := by
  have heffect := s.step_effect a
  generalize (s.step a).1 = next at heffect hsender ⊢
  cases heffect with
  | still a next hfile hfiles hdispatcher =>
    rw [hdispatcher]
    exact hloop
  | ask a b next hask hfiles hdispatcher =>
    have hruns : Dispatcher.Runs s.dispatcher loop feed := ⟨hloop, hknown⟩
    rw [hdispatcher] at hsender ⊢
    exact ((hruns.step (s.dispatcher.step_effect b)).resolve_right hsender).running
  | file b next hsource hdispatcher =>
    obtain ⟨channels, hdispatcher⟩ := hdispatcher
    rw [hdispatcher]
    exact hloop
  | renew items next => exact ha.elim

theorem items_step (ha : a.Leaves feed) : (s.step a).1.files.items = s.files.items := by
  have heffect := s.step_effect a
  generalize (s.step a).1 = next at heffect ⊢
  cases heffect with
  | still a next hfile hfiles hdispatcher => rw [hfiles]
  | ask a b next hask hfiles hdispatcher => rw [hfiles]
  | file b next hsource hdispatcher =>
    show next.source.items = s.source.items
    rw [hsource, FileSource.items_step]
  | renew items next => exact ha.elim

theorem items_run (s : Scene) (as : List SceneAction) (has : ∀ a ∈ as, a.Leaves feed) :
    (s.run as).files.items = s.files.items := by
  induction as generalizing s with
  | nil => rfl
  | cons a as ih =>
    have hrest := ih (s.step a).1 fun b hb => has b (List.mem_cons_of_mem _ hb)
    exact hrest.trans (items_step (has a (List.mem_cons_self ..)))

end Scene

/--
Whether an action leaves it to others to tell a start of the dispatcher how the feed was opened.
-/
def SceneAction.Awaits (start : Nat) : SceneAction → Prop
  | .dispatcher (.opened i _) | .openFile i _ => i ≠ start
  | _ => True

namespace Scene

variable {s : Scene} {a : SceneAction} {key : String} {feed start call : Nat} {x : FileState}
variable {h : List Delivery}

theorem Asks.awaits {b : DispatcherAction Response} (hask : s.Asks a b) (ha : a.Awaits start)
    (r : Except ConfigError Nat) : b ≠ .opened start r := by
  cases hask with
  | dispatcher b =>
    rintro rfl
    exact ha rfl
  | openFile i call r' hr =>
    have hne : i ≠ start := ha
    simp [hne]
  | _ => simp

/--
A start of the dispatcher waits for the feed that a call was answered with. All that the watcher has
handed to it is in its queue.
-/
structure Waits (key : String) (feed start call : Nat) (x : FileState) (s : Scene)
    (h : List Delivery) : Prop where
  one : s.dispatcher.OneLoop
  opening : s.dispatcher.starts[start]? = some .opening
  answered : s.source.calls[call]? = some (.watching (.ok feed))
  supplies : s.source.Supplies key feed x h
  queue : queueAt s.channels feed = arrived h

theorem Waits.gone (hs : s.Waits key feed start call x h) :
    ∀ l ∈ s.dispatcher.loops, l.phase = .gone :=
  hs.one.idle (hs.one.held start (hs.one.opening start hs.opening))

theorem Waits.not_ending (hs : s.Waits key feed start call x h) (i : Nat) :
    s.dispatcher.loops[i]? ≠ some ⟨feed, .ending⟩ := by
  intro hi
  have hgone := hs.gone _ (List.mem_of_getElem? hi)
  cases hgone

theorem receive_of_gone {d : Dispatcher α} (hgone : ∀ l ∈ d.loops, l.phase = .gone) (i : Nat) :
    (d.receive i).1 = d := by
  unfold Dispatcher.receive
  split
  . next feed hi =>
    have hphase := hgone _ (List.mem_of_getElem? hi)
    cases hphase
  . rfl

theorem Waits.opening_step (hs : s.Waits key feed start call x h) (ha : a.Leaves feed)
    (hawaits : a.Awaits start) : (s.step a).1.dispatcher.starts[start]? = some .opening := by
  have heffect := s.step_effect a
  generalize (s.step a).1 = next at heffect ⊢
  cases heffect with
  | still a next hfile hfiles hdispatcher =>
    rw [hdispatcher]
    exact hs.opening
  | ask a b next hask hfiles hdispatcher =>
    rw [hdispatcher]
    exact Dispatcher.opening_step hs.opening (s.dispatcher.step_effect b) (hask.awaits hawaits)
  | file b next hsource hdispatcher =>
    obtain ⟨channels, hdispatcher⟩ := hdispatcher
    rw [hdispatcher]
    exact hs.opening
  | renew items next => exact ha.elim

theorem Waits.answered_step (hs : s.Waits key feed start call x h) (ha : a.Leaves feed) :
    (s.step a).1.source.calls[call]? = some (.watching (.ok feed)) := by
  have heffect := s.step_effect a
  generalize (s.step a).1 = next at heffect ⊢
  cases heffect with
  | still a next hfile hfiles hdispatcher =>
    show next.files.calls[call]? = _
    rw [hfiles]
    exact hs.answered
  | ask a b next hask hfiles hdispatcher =>
    show next.files.calls[call]? = _
    rw [hfiles]
    exact hs.answered
  | file b next hsource hdispatcher =>
    rw [hsource]
    exact FileSource.over_step hs.answered rfl
  | renew items next => exact ha.elim

theorem Waits.step (hs : s.Waits key feed start call x h) (ha : a.Leaves feed)
    (hawaits : a.Awaits start) :
    (s.step a).1.Waits key feed start call x (h ++ s.deliveries key feed a) := by
  obtain ⟨hsupplies, hqueue⟩ := supplies_step hs.supplies hs.not_ending ha
  refine ⟨s.oneLoop_step a hs.one, hs.opening_step ha hawaits, hs.answered_step ha, hsupplies, ?_⟩
  by_cases hreceive : ∃ i, a = .dispatcher (.receive i)
  . obtain ⟨i, rfl⟩ := hreceive
    have hstep : (s.step (.dispatcher (.receive i))).1 = s := by
      simp only [step, stepDispatcher, Dispatcher.step, receive_of_gone hs.gone]
    rw [hstep, hs.queue, deliveries_of_not_file (by simp), List.append_nil]
  . rw [hqueue fun i hi => hreceive ⟨i, hi⟩, hs.queue, arrived_append]

theorem poll_ne_closed {d : Dispatcher Response} {k : Nat} {slot : Slot Response}
    (hslot : d.slots[k]? = some slot) (hsource : slot.hasSource = true) :
    (d.poll k).2 ≠ .closed := by
  rw [Dispatcher.poll, hslot]
  dsimp only
  unfold Slot.poll
  split <;> simp [hsource]

theorem follower_turn {route : Route} {p : Pipe} (hp : route.Shows s p)
    (hsource : p.slot.hasSource = true) (hf : ⟨route.binding, route.slot, false⟩ ∈ s.followers)
    (i : Nat) : ⟨route.binding, route.slot, false⟩ ∈ (s.turn i).1.followers := by
  unfold turn
  split
  . next b k hi =>
    split
    . exact hf
    . next hpoll =>
      have hk : k ≠ route.slot := by
        rintro rfl
        exact poll_ne_closed hp.slot hsource (congrArg Prod.snd hpoll)
      obtain ⟨j, hj⟩ := List.mem_iff_getElem?.1 hf
      have hne : i ≠ j := by
        rintro rfl
        rw [hj] at hi
        cases hi
        exact hk rfl
      exact List.mem_of_getElem? ((List.getElem?_set_ne hne).trans hj)
    . exact hf
  . exact hf

/--
A follower goes on as long as its slot has a source.
-/
theorem follower_step {route : Route} {p : Pipe} (hp : route.Shows s p)
    (hsource : p.slot.hasSource = true) (hf : ⟨route.binding, route.slot, false⟩ ∈ s.followers)
    (ha : a.Leaves feed) : ⟨route.binding, route.slot, false⟩ ∈ (s.step a).1.followers := by
  cases a with
  | turn i => exact follower_turn hp hsource hf i
  | follow b k => exact List.mem_append_left _ hf
  | apply b r =>
    simp only [step, apply]
    split <;> exact hf
  | openFile i call =>
    simp only [step]
    split <;> exact hf
  | renew items => exact ha.elim
  | dispatcher b | file b | bind b => exact hf

/--
What the watcher has handed over is on the way to the binding, which is followed.
-/
structure Feeds (key : String) (route : Route) (p₀ : Pipe) (x : FileState) (s : Scene)
    (h : List Delivery) : Prop where
  supplies : s.source.Supplies key route.feed x h
  follower : ⟨route.binding, route.slot, false⟩ ∈ s.followers
  flows : ∃ ms, route.Flows p₀ s ms ∧ p₀.queue ++ sentEvents ms = arrived h

theorem sentEvents_moments {route : Route} {rs : List Response}
    (hreceive : (∃ i, a = .dispatcher (.receive i)) → rs = [])
    (hturn : (∃ i, a = .turn i) → rs = [])
    (hqueue : (∀ i, a ≠ .dispatcher (.receive i)) →
      queueAt (s.step a).1.channels route.feed = queueAt s.channels route.feed ++ rs) :
    sentEvents (route.moments s a) = rs := by
  have hsent : (∀ i, a ≠ .dispatcher (.receive i)) →
      sentEvents (((queueAt (s.step a).1.channels route.feed).drop
        (queueAt s.channels route.feed).length).map .sent) = rs := by
    intro hne
    rw [hqueue hne, List.drop_left, sentEvents_map_sent]
  cases a with
  | dispatcher b =>
    cases b with
    | receive i =>
      rw [hreceive ⟨i, rfl⟩, Route.moments]
      split
      . cases (queueAt s.channels route.feed).head? <;> rfl
      . rfl
    | _ => exact hsent (by simp)
  | turn i =>
    rw [hturn ⟨i, rfl⟩, Route.moments]
    split <;> rfl
  | _ => exact hsent (by simp)

theorem Feeds.step {route : Route} {p₀ : Pipe} (hs : s.Feeds key route p₀ x h)
    (ha : a.Leaves route.feed) (hspares : a.Spares route) :
    (s.step a).1.Feeds key route p₀ x (h ++ s.deliveries key route.feed a) := by
  obtain ⟨ms, hflows, hevents⟩ := hs.flows
  -- a loop that is ending would drop the receiver, but the one of the route is the only one
  have hnot : ∀ i : Nat, s.dispatcher.loops[i]? ≠ some ⟨route.feed, .ending⟩ := by
    intro i hi
    have hloop := hflows.way.loop
    rw [hflows.way.one.single i route.loop _ _ hi hloop (by simp) (by simp), hloop] at hi
    cases hi
  obtain ⟨hsupplies, hqueue⟩ := supplies_step hs.supplies hnot ha
  have hloop : (s.step a).1.dispatcher.loops[route.loop]? = some ⟨route.feed, .running⟩ := by
    obtain ⟨c, hc, -, -⟩ := hs.supplies.channel
    obtain ⟨c', hc', hsender, -⟩ := hsupplies.channel
    refine loop_step hflows.way.loop (List.getElem?_eq_some_iff.1 hc).1 ha ?_
    rintro ⟨c'', hc'', hnone⟩
    have heq : some c' = some c'' := hc'.symm.trans hc''
    rw [← Option.some.inj heq, hsender] at hnone
    cases hnone
  obtain ⟨p, hp, hlaw⟩ := hflows.law
  refine ⟨hsupplies, follower_step hp hlaw.ends.1 hs.follower ha, _,
    hflows.step a ⟨hloop, hspares⟩, ?_⟩
  rw [sentEvents_append, ← List.append_assoc, hevents, arrived_append, sentEvents_moments _ _ hqueue]
  . rintro ⟨i, rfl⟩
    rfl
  . rintro ⟨i, rfl⟩
    rfl

theorem Feeds.has_binding {route : Route} {p₀ : Pipe} (hs : s.Feeds key route p₀ x h) :
    ∃ b, s.bindings[route.binding]? = some b := by
  obtain ⟨ms, ⟨-, p, hp, -⟩, -⟩ := hs.flows
  exact ⟨p.binding, hp.binding⟩

/--
When everything has settled, the last event that the follower has found is the last one that there
was room for.
-/
theorem Feeds.current_of_settled {route : Route} {p₀ : Pipe} (hs : s.Feeds key route p₀ x h)
    (hsettled : s.IsSettled) {b : Binding} (hb : s.bindings[route.binding]? = some b) :
    ∃ found, b.current = p₀.binding.after found ∧ found.getLast? = (arrived h).getLast? := by
  obtain ⟨ms, ⟨hway, p, hp, hlaw⟩, hevents⟩ := hs.flows
  have hflow := hlaw.flow
  have hfresh : (bursts ms).fresh = [] := by
    rw [← List.getLast?_eq_none_iff, ← hlaw.slot]
    exact fresh?_eq_none_of_settled hsettled hp hs.follower
  rw [queue_eq_nil_of_settled hsettled hway hp, hfresh, List.append_nil, List.append_nil,
    hevents] at hflow
  refine ⟨foundEvents ms, ?_, ?_⟩
  . rw [hp.binding, Option.some.injEq] at hb
    rw [← hb, hlaw.binding]
  . rw [foundEvents, getLast?_filterMap_getLast?, hflow]

end Scene

end Upkeep.Config
