import Mathlib.Data.List.Induction
import Upkeep.Proofs.Config.Audience
import Upkeep.Proofs.Config.Calls
import Upkeep.Proofs.Config.News

/-!
This module contains the proof that all who watch a key share one watcher, in whatever order their
calls go on, and that each of them is in the hub of this watcher from the moment when its call is
over until the source is given up.
-/

namespace Upkeep.Config

theorem Channel.receive_cases (c : Channel α) :
    c.queue = [] ∧ c.receive = (c, if c.hasSender then .pending else .closed) ∨
      ∃ x rest, c.queue = x :: rest ∧ c.receive = ({ c with queue := rest }, .value x) := by
  unfold receive
  cases hq : c.queue with
  | nil => exact .inl ⟨rfl, rfl⟩
  | cons x rest => exact .inr ⟨x, rest, rfl, rfl⟩

namespace FileSource

variable {key : String} {ch : Nat} {w : FileSource} {a : FileAction}

/--
The events that tell that the watching of a key begins.
-/
def beginnings (key : String) (es : List Event) : Nat :=
  es.countP fun e =>
    e.message = "start watching config file" && e.fields.contains ("key", key)

/--
The channels that an action answers to one who watches a key.
-/
def served (key : String) (w : FileSource) : FileAction → List Nat
  | .finish i registration =>
    match w.calls[i]? with
    | some (.watchRead k _ (.ok _)) =>
      if k = key ∧ w.accepts k registration then [w.channels.length] else []
    | _ => []
  | _ => []

/--
The channels of all who watch a key, in the order in which their calls came to an end.
-/
def listeners (key : String) (w : FileSource) (as : List FileAction) : List Nat :=
  Run.history (fun (w : FileSource) a => (w.step a).1) (served key) w as

/--
What a receiver is told in an action.
-/
def answers (ch : Nat) (w : FileSource) : FileAction → List (Polled Response)
  | .receive i => if i = ch then ((w.channels[ch]?).map (·.receive.2)).toList else []
  | _ => []

/--
All that a receiver is told.
-/
def polled (ch : Nat) (w : FileSource) (as : List FileAction) : List (Polled Response) :=
  Run.history (fun (w : FileSource) a => (w.step a).1) (answers ch) w as

/--
What the watcher of a key hands to a channel of its hub.
-/
def offered (key : String) (ch : Nat) (w : FileSource) (as : List FileAction) : List Delivery :=
  Run.history (fun (w : FileSource) a => (w.step a).1) (deliveries key ch) w as

theorem response_offered (key : String) (ch : Nat) (w : FileSource) (as : List FileAction) :
    (w.offered key ch as).map (·.response) = w.published key as := by
  unfold offered published
  induction as generalizing w with
  | nil => rfl
  | cons a as ih =>
    rw [Run.history, List.map_append, ih, deliveries_eq_map, List.map_map, Run.history]
    simp [Function.comp_def]

/--
What is known of one who watches a key: its channel gets what the watcher of the key hands to it,
is in the hub of this watcher and in no other while the source is alive, and has lost its sender
when it is not.
-/
structure Listens (key : String) (ch : Nat) (w : FileSource) (ds : List Delivery)
    (ps : List (Polled Response)) : Prop where
  channel : ∃ c, w.channels[ch]? = some c ∧ c.hasReceiver = true ∧ c.hasSender = w.isAlive ∧
    c.capacity = channelCapacity ∧ ps.filterMap Polled.value? ++ c.queue = arrived ds
  watcher : w.isAlive = true → ∃ x, w.watchers.get? key = some x
  members : ∀ k x, w.watchers.get? k = some x →
    x.hub.members.count ch = if k = key then 1 else 0

namespace Listens

variable {ds : List Delivery} {ps : List (Polled Response)}

theorem channel_receive (hw : w.Listens key ch ds ps) :
    ∃ c, (w.step (.receive ch)).1.channels[ch]? = some c ∧ c.hasReceiver = true ∧
      c.hasSender = w.isAlive ∧ c.capacity = channelCapacity ∧
      (ps ++ w.answers ch (.receive ch)).filterMap Polled.value? ++ c.queue = arrived ds := by
  obtain ⟨c, hc, hreceiver, hsender, hcapacity, horder⟩ := hw.channel
  have hstep : (w.step (.receive ch)).1.channels[ch]? = some c.receive.1 := by
    simp [FileSource.step, hc]
  have hanswers : w.answers ch (.receive ch) = [c.receive.2] := by simp [answers, hc]
  refine ⟨c.receive.1, hstep, ?_⟩
  rw [hanswers, List.filterMap_append]
  rcases c.receive_cases with ⟨hq, hreceive⟩ | ⟨x, rest, hq, hreceive⟩
  . have hnone : [c.receive.2].filterMap Polled.value? = [] := by
      rw [hreceive]
      cases c.hasSender <;> rfl
    rw [hnone, List.append_nil, hreceive]
    exact ⟨hreceiver, hsender, hcapacity, horder⟩
  . rw [hq] at horder
    rw [hreceive, List.append_assoc]
    exact ⟨hreceiver, hsender, hcapacity, horder⟩

theorem answers_of_ne (w : FileSource) (ha : a ≠ .receive ch) : w.answers ch a = [] := by
  cases a with
  | receive i =>
    rw [answers, if_neg]
    rintro rfl
    exact ha rfl
  | _ => rfl

theorem still (hw : w.Listens key ch ds ps) {next : FileSource}
    (hchannel : next.channels[ch]? = w.channels[ch]?) (halive : next.isAlive = w.isAlive)
    (hwatchers : next.watchers = w.watchers) : next.Listens key ch ds ps := by
  refine ⟨?_, ?_, ?_⟩
  . rw [hchannel, halive]
    exact hw.channel
  . rw [halive, hwatchers]
    exact hw.watcher
  . rw [hwatchers]
    exact hw.members

theorem step_receive (hw : w.Listens key ch ds ps) :
    (w.step (.receive ch)).1.Listens key ch (ds ++ w.deliveries key ch (.receive ch))
      (ps ++ w.answers ch (.receive ch)) := by
  have hnone : w.deliveries key ch (.receive ch) = [] := rfl
  rw [hnone, List.append_nil]
  exact ⟨hw.channel_receive, hw.watcher, hw.members⟩

theorem step_of_dead (hw : w.Listens key ch ds ps) (hquits : w.Quits) (hdead : w.isAlive = false)
    (ha : a ≠ .dropReceiver ch) :
    (w.step a).1.Listens key ch (ds ++ w.deliveries key ch a) (ps ++ w.answers ch a) := by
  by_cases hreceive : a = .receive ch
  . subst hreceive
    exact hw.step_receive
  . obtain ⟨disk, channels, hstep, hsame⟩ := FileSource.step_of_dead hquits hdead a
    have hnews : w.news? key = none := by simp [news?, (hquits hdead).1]
    have hdeliveries : w.deliveries key ch a = [] := by
      cases a with
      | handle k => simp [deliveries, hnews]
      | _ => rfl
    have hchannel : (w.step a).1.channels[ch]? = w.channels[ch]? := by
      cases a with
      | receive i | dropReceiver i =>
        have hi : i ≠ ch := by
          rintro rfl
          first | exact hreceive rfl | exact ha rfl
        simp [FileSource.step, hi]
      | _ => rw [hstep, hsame (by simp) (by simp)]
    rw [hdeliveries, answers_of_ne w hreceive, List.append_nil, List.append_nil]
    refine hw.still hchannel ?_ ?_
    . rw [hstep]
    . rw [hstep]

/--
The watcher of the key supplies the channel.
-/
theorem supplies (hw : w.Listens key ch ds ps) (halive : w.isAlive = true) :
    ∃ x, w.watchers.get? key = some x ∧ w.Supplies key ch x.state [] := by
  obtain ⟨c, hc, hreceiver, hsender, -, -⟩ := hw.channel
  obtain ⟨x, hx⟩ := hw.watcher halive
  exact ⟨x, hx, ⟨c, hc, hsender.trans halive, hreceiver⟩, ⟨x, hx, rfl⟩, hw.members⟩

theorem step_of_alive (hw : w.Listens key ch ds ps) (halive : w.isAlive = true) (hdrop : a ≠ .drop)
    (ha : a ≠ .dropReceiver ch) :
    (w.step a).1.Listens key ch (ds ++ w.deliveries key ch a) (ps ++ w.answers ch a) := by
  by_cases hreceive : a = .receive ch
  . subst hreceive
    exact hw.step_receive
  . obtain ⟨x, hx, hsupplies⟩ := hw.supplies halive
    obtain ⟨c, hc, hreceiver, hsender, hcapacity, horder⟩ := hw.channel
    have hspares : a.Spares ch := by
      cases a with
      | receive i | dropReceiver i =>
        rintro rfl
        first | exact hreceive rfl | exact ha rfl
      | _ => trivial
    have hchannel := hsupplies.channel_step hspares hdrop hc hreceiver
    refine ⟨⟨_, hchannel, hreceiver, ?_, hcapacity, ?_⟩, ?_, hsupplies.members_step⟩
    . rw [isAlive_step_of_ne hdrop, hsender]
    . rw [answers_of_ne w hreceive, List.append_nil, arrived_append, ← horder, List.append_assoc]
    . intro _
      obtain ⟨x', hx', -⟩ := hsupplies.watcher_step hdrop
      exact ⟨x', hx'⟩

/--
When the source is given up, the channel loses its sender and keeps what is queued.
-/
theorem step_drop (hw : w.Listens key ch ds ps) (halive : w.isAlive = true) :
    (w.step .drop).1.Listens key ch ds ps := by
  cases hidle : w.isIdle with
  | false =>
    rw [FileSource.step, drop, hidle]
    exact hw
  | true =>
    obtain ⟨c, hc, hreceiver, hsender, hcapacity, horder⟩ := hw.channel
    obtain ⟨x, hx⟩ := hw.watcher halive
    rw [FileSource.step, drop, if_pos hidle]
    refine ⟨⟨c.dropSender, ?_, hreceiver, rfl, hcapacity, horder⟩, by simp, by simp⟩
    have hmem : ∃ i ∈ w.watchers.entries.flatMap fun x => x.2.hub.members, id i = ch := by
      have hcount := hw.members key x hx
      rw [if_pos rfl] at hcount
      have hmember : ch ∈ x.hub.members := List.count_pos_iff.1 (by omega)
      exact ⟨ch, List.mem_flatMap.2 ⟨(key, x), w.watchers.mem_of_get? hx, hmember⟩, rfl⟩
    have hsent := getElem?_foldl_modify_of_idempotent Channel.dropSender (fun _ => rfl) id
      (w.watchers.entries.flatMap fun x => x.2.hub.members) w.channels ch
    rw [if_pos hmem, hc] at hsent
    exact hsent

theorem step (hw : w.Listens key ch ds ps) (hquits : w.Quits) (ha : a ≠ .dropReceiver ch) :
    (w.step a).1.Listens key ch (ds ++ w.deliveries key ch a) (ps ++ w.answers ch a) := by
  cases halive : w.isAlive with
  | false => exact hw.step_of_dead hquits halive ha
  | true =>
    by_cases hdrop : a = .drop
    . subst hdrop
      have hds : w.deliveries key ch .drop = [] := rfl
      have hps : w.answers ch .drop = [] := rfl
      rw [hds, hps, List.append_nil, List.append_nil]
      exact hw.step_drop halive
    . exact hw.step_of_alive halive hdrop ha

theorem run (hw : w.Listens key ch ds ps) (hquits : w.Quits) (as : List FileAction)
    (has : .dropReceiver ch ∉ as) :
    (w.run as).1.Listens key ch (ds ++ w.offered key ch as) (ps ++ w.polled ch as) := by
  rw [run_fst]
  induction as generalizing w ds ps with
  | nil => simpa [offered, polled, Run.history] using hw
  | cons a as ih =>
    rw [List.mem_cons, not_or] at has
    have hlast := ih (hw.step hquits (Ne.symm has.1)) (hquits.step a) has.2
    rw [List.append_assoc, List.append_assoc] at hlast
    exact hlast

/--
One who watches a key listens as soon as the call is over.
-/
theorem of_finish (hexist : w.MembersExist) (hquits : w.Quits) {i : Nat} {path content : String}
    {registration : Disk.Registration}
    (hcall : w.calls[i]? = some (.watchRead key path (.ok content)))
    (haccepts : w.accepts key registration = true) :
    (w.step (.finish i registration)).1.Listens key w.channels.length [] [] := by
  have halive : w.isAlive = true := by
    cases hdead : w.isAlive with
    | true => rfl
    | false => cases (hquits hdead).2 _ (List.mem_of_getElem? hcall)
  obtain ⟨x, hx, hsupplies⟩ := supplies_finish hexist hcall haccepts
  refine ⟨⟨.empty channelCapacity, ?_, rfl, ?_, rfl, rfl⟩, fun _ => ⟨x, hx⟩, hsupplies.members⟩
  . rw [FileSource.step, channels_finish_of_accepts hcall haccepts, List.getElem?_concat_length]
  . rw [isAlive_step_of_ne (by simp), halive]
    rfl

end Listens

/--
A receiver whose sender is gone gets what is queued and is told that this was all.
-/
theorem polled_of_not_hasSender {c : Channel Response} (hc : w.channels[ch]? = some c)
    (hsender : c.hasSender = false) :
    w.polled ch (.replicate (c.queue.length + 1) (.receive ch)) =
      c.queue.map .value ++ [.closed] := by
  generalize hq : c.queue = q
  induction q generalizing w c with
  | nil =>
    simp [polled, Run.history, answers, hc, Channel.receive, hq, hsender]
  | cons r q ih =>
    have hreceive : c.receive = ({ c with queue := q }, .value r) := by
      simp only [Channel.receive, hq]
    have hnext : (w.step (.receive ch)).1.channels[ch]? = some { c with queue := q } := by
      simp [step, hc, hreceive]
    have hrest := ih hnext hsender rfl
    have hanswers : w.answers ch (.receive ch) = [.value r] := by simp [answers, hc, hreceive]
    rw [List.length_cons, List.replicate_succ, polled, Run.history, hanswers, List.map_cons]
    exact congrArg (.value r :: ·) hrest

theorem listeners_concat (key : String) (w : FileSource) (as : List FileAction) (a : FileAction) :
    w.listeners key (as ++ [a]) = w.listeners key as ++ (w.run as).1.served key a := by
  rw [listeners, Run.history_append, run_fst]
  simp [listeners, Run.history]

theorem beginnings_append (key : String) (es es' : List Event) :
    beginnings key (es ++ es') = beginnings key es + beginnings key es' :=
  List.countP_append

theorem beginnings_of_silent (key : String) {es : List Event}
    (hes : ∀ e ∈ es, e.message ≠ "start watching config file") : beginnings key es = 0 := by
  rw [beginnings, List.countP_eq_zero]
  intro e he
  simp [hes e he]

theorem silent_handle (s : FileState) (key path name : String) (n : Notice)
    (reading : Except Fault String) :
    ∀ e ∈ (s.handle key path name n reading).events, e.message ≠ "start watching config file" := by
  have hremove : ∀ e ∈ (s.remove key path).events, e.message ≠ "start watching config file" := by
    unfold FileState.remove
    split <;> simp [FileState.unchanged, Event.info]
  have hwrite : ∀ c, ∀ e ∈ (s.write key path c).events,
      e.message ≠ "start watching config file" := by
    intro c
    unfold FileState.write
    split <;> simp [FileState.unchanged, Event.info]
  unfold FileState.handle
  split
  . simp [FileState.unchanged, Event.error]
  . split
    . next kind _ =>
      cases kind with
      | removed => exact hremove
      | other => simp [FileState.update, FileState.unchanged]
      | written =>
        unfold FileState.update
        dsimp only
        split
        . exact hwrite _
        . exact hremove
        . simp [FileState.unchanged, Event.error]
    . simp [FileState.unchanged]

theorem silent_publish (key : String) (x : α) (h : Hub) (cs : List (Channel α)) :
    ∀ e ∈ (h.publish key x cs).2.2, e.message ≠ "start watching config file" := by
  unfold Hub.publish
  refine List.foldlRecOn h.members _
    (motive := fun s : Hub × List (Channel α) × List Event =>
      ∀ e ∈ s.2.2, e.message ≠ "start watching config file") (by simp) ?_
  rintro ⟨h, cs, es⟩ hes i -
  refine List.forall_mem_append.2 ⟨hes, ?_⟩
  unfold Hub.offer
  split
  . split <;> simp [Hub.missedEvent, Event.warn]
  . simp

theorem served_of_accepts {i : Nat} {k path content : String} {registration : Disk.Registration}
    (hcall : w.calls[i]? = some (.watchRead k path (.ok content)))
    (haccepts : w.accepts k registration = true) :
    w.served key (.finish i registration) = if k = key then [w.channels.length] else [] := by
  simp [served, hcall, haccepts]

theorem served_of_not_watch {i : Nat} {registration : Disk.Registration}
    (hcall : ∀ k path content, w.calls[i]? ≠ some (.watchRead k path (.ok content))) :
    w.served key (.finish i registration) = [] := by
  simp only [served]

theorem silent_finish {i : Nat} {registration : Disk.Registration}
    (hcall : ∀ k path content, w.calls[i]? ≠ some (.watchRead k path (.ok content))) :
    ∀ e ∈ (w.finish i registration).2, e.message ≠ "start watching config file" := by
  unfold finish
  split
  . unfold finishGet
    split
    . simp
    . split <;> simp [Event.warn]
  . next h => exact absurd h (hcall _ _ _)
  . simp
  . simp

theorem events_finish_of_accepts {i : Nat} {k path content : String}
    {registration : Disk.Registration}
    (hcall : w.calls[i]? = some (.watchRead k path (.ok content)))
    (haccepts : w.accepts k registration = true) :
    (w.finish i registration).2 = if w.watchers.get? k = none then
      [.info "start watching config file" [("key", k), ("path", path)]] else [] := by
  simp only [finish, hcall, finishWatch]
  cases hx : w.watchers.get? k with
  | some x => rfl
  | none =>
    cases registration with
    | ok entry => rfl
    | error cause => simp [accepts, hx, Except.isOk, Except.toBool] at haccepts

/--
The watching of a key begins when the first of those who watch it gets its channel.
-/
theorem beginnings_step (key : String) (w : FileSource) (a : FileAction) :
    beginnings key (w.step a).2 =
      if w.served key a ≠ [] ∧ w.watchers.get? key = none then 1 else 0 := by
  have hsilent : (∀ e ∈ (w.step a).2, e.message ≠ "start watching config file") →
      w.served key a = [] → beginnings key (w.step a).2 =
        if w.served key a ≠ [] ∧ w.watchers.get? key = none then 1 else 0 := by
    intro hes hserved
    rw [beginnings_of_silent key hes, hserved, if_neg (by simp)]
  cases a with
  | finish i registration =>
    by_cases hcall : ∃ k path content, w.calls[i]? = some (.watchRead k path (.ok content))
    . obtain ⟨k, path, content, hcall⟩ := hcall
      cases haccepts : w.accepts k registration with
      | false =>
        obtain ⟨cause, -, -, hfinish⟩ := finish_of_not_accepts hcall haccepts
        refine hsilent ?_ (by simp [served, hcall, haccepts])
        simp [step, hfinish]
      | true =>
        rw [step, events_finish_of_accepts hcall haccepts, served_of_accepts hcall haccepts]
        by_cases hk : k = key
        . subst hk
          cases w.watchers.get? k <;> simp [beginnings, Event.info]
        . have hne : key ≠ k := fun h => hk h.symm
          cases w.watchers.get? k <;> simp [beginnings, Event.info, hk, hne]
    . have hnot : ∀ k path content, w.calls[i]? ≠ some (.watchRead k path (.ok content)) :=
        fun k path content h => hcall ⟨k, path, content, h⟩
      exact hsilent (silent_finish hnot) (served_of_not_watch hnot)
  | handle k =>
    refine hsilent ?_ rfl
    simp only [step, handle]
    split
    . split
      . simp
      . refine List.forall_mem_append.2 ⟨silent_handle _ _ _ _ _ _, ?_⟩
        split
        . exact silent_publish _ _ _ _
        . simp
    . simp
  | drop =>
    refine hsilent ?_ rfl
    simp only [step, drop]
    split <;> simp [Event.debug]
  | change | notify | get | watch | read | look | receive | dropReceiver =>
    exact hsilent (by simp [step]) rfl

theorem watch_of_served (hserved : w.served key a ≠ []) :
    ∃ i registration path content, a = .finish i registration ∧
      w.calls[i]? = some (.watchRead key path (.ok content)) ∧
      w.accepts key registration = true := by
  unfold served at hserved
  split at hserved
  . next i registration =>
    split at hserved
    . next k path content hcall =>
      split at hserved
      . next haccepts =>
        obtain ⟨rfl, haccepts⟩ := haccepts
        exact ⟨i, registration, path, content, rfl, hcall, haccepts⟩
      . exact absurd rfl hserved
    . exact absurd rfl hserved
  . exact absurd rfl hserved

/--
Who watches a key finds a watcher or makes one, and a watcher stays until the source is given up.
-/
theorem watched_step (hstill : (w.step a).1.isAlive = true) :
    ((w.step a).1.watchers.get? key).isSome = true ↔
      (w.watchers.get? key).isSome = true ∨ w.served key a ≠ [] := by
  have heffect := w.watcher_effect key a
  generalize w.watchers.get? key = o at heffect ⊢
  generalize ho' : (w.step a).1.watchers.get? key = o' at heffect ⊢
  cases heffect with
  | absent =>
    have hnot : w.served key a = [] := by
      by_contra hserved
      obtain ⟨i, registration, path, content, rfl, hcall, haccepts⟩ := watch_of_served hserved
      obtain ⟨x, hwatchers, -⟩ := watchers_finish_of_accepts hcall haccepts
      rw [step, hwatchers, Dict.get?_insert_self] at ho'
      cases ho'
    simp [hnot]
  | make i path content entry hcall =>
    simp [served_of_accepts hcall (show w.accepts key (.ok entry) = true from Bool.or_true _)]
  | move => simp
  | drop _ hidle => exact absurd hidle (by simp [(isAlive_step hstill).2 rfl])

/--
All who watch a key share one watcher: there is one just if there is somebody who watches, and the
watching has begun just once.
-/
structure Shares (key : String) (w : FileSource) (es : List Event) (chs : List Nat) : Prop where
  begun : beginnings key es = if chs = [] then 0 else 1
  watched : w.isAlive = true → ((w.watchers.get? key).isSome = true ↔ chs ≠ [])

theorem Shares.step {es : List Event} {chs : List Nat} (hw : w.Shares key es chs) (hquits : w.Quits)
    (a : FileAction) :
    (w.step a).1.Shares key (es ++ (w.step a).2) (chs ++ w.served key a) := by
  refine ⟨?_, ?_⟩
  . rw [beginnings_append, hw.begun, beginnings_step]
    cases halive : w.isAlive with
    | false =>
      -- no call is left that somebody could be served by
      have hnot : w.served key a = [] := by
        by_contra hserved
        obtain ⟨i, registration, path, content, rfl, hcall, -⟩ := watch_of_served hserved
        cases (hquits halive).2 _ (List.mem_of_getElem? hcall)
      simp [hnot]
    | true =>
      have hwatched := hw.watched halive
      by_cases hchs : chs = []
      . have hnone : w.watchers.get? key = none := by simpa [hchs] using hwatched
        by_cases hserved : w.served key a = [] <;> simp [hchs, hnone, hserved]
      . have hsome : w.watchers.get? key ≠ none := by
          simpa [hchs, Option.isSome_iff_ne_none] using hwatched
        simp [hchs, hsome]
  . intro hstill
    rw [watched_step hstill, hw.watched (isAlive_step hstill).1]
    by_cases hchs : chs = [] <;> simp [hchs]

theorem Shares.count_keys {es : List Event} {chs : List Nat} (hw : w.Shares key es chs)
    (halive : w.isAlive = true) : w.watchers.keys.count key = if chs = [] then 0 else 1 := by
  have hkey : key ∈ w.watchers.keys ↔ chs ≠ [] := by
    rw [Dict.mem_keys_iff]
    exact hw.watched halive
  have hnodup : w.watchers.keys.Nodup := w.watchers.nodup
  rw [hnodup.count]
  simp only [hkey, ne_eq, ite_not]

theorem shares_run (key : String) (disk : Disk) (channels : List (Channel Response))
    (items : Dict String String) (as : List FileAction) :
    let w := (start disk channels items).run as
    w.1.Shares key w.2 ((start disk channels items).listeners key as) := by
  intro w
  induction as using List.reverseRecOn with
  | nil => exact ⟨rfl, by simp [w, run, start, listeners, Run.history]⟩
  | append_singleton as a ih =>
    have hquits := quits_run disk channels items as
    simp only [w, run_concat, listeners_concat]
    exact Shares.step ih hquits a

/--
All who watch a key, in whatever order their calls go on, share one watcher while the source is
alive, and the watching begins once. A call gets a channel if the file is there, and the key has its
watcher or one can be told of what happens to the file. Whoever gets a channel is in the hub of this
watcher just once, and in no other, until the receiver goes away. It is handed all that is published
from then on, and it gets all of this, in order, but for what finds its channel full. A call that
fails changes nothing. When all calls are over, the source can be given up, and then each receiver
gets what is queued and is told that this was all.
-/
theorem listeners_share_watcher (disk : Disk) (channels : List (Channel Response))
    (items : Dict String String) (as : List FileAction) :
    let source := start disk channels items
    let w := (source.run as).1
    (∀ key,
      beginnings key (source.run as).2 = (if source.listeners key as = [] then 0 else 1) ∧
      (w.isAlive = true →
        w.watchers.keys.count key = if source.listeners key as = [] then 0 else 1)) ∧
    (∀ before i registration after key path content,
      as = before ++ .finish i registration :: after →
      let v := (source.run before).1
      v.calls[i]? = some (.watchRead key path (.ok content)) →
      v.accepts key registration = true →
      let ch := v.channels.length
      let joined := (v.step (.finish i registration)).1
      w.channel? i = some (.ok ch) ∧
      (.dropReceiver ch ∉ after →
        (w.isAlive = true → (∃ x, w.watchers.get? key = some x) ∧
          ∀ k x, w.watchers.get? k = some x →
            x.hub.members.count ch = if k = key then 1 else 0) ∧
        (joined.offered key ch after).map (·.response) = joined.published key after ∧
        ∃ c, w.channels[ch]? = some c ∧ c.capacity = channelCapacity ∧
          (joined.polled ch after).filterMap Polled.value? ++ c.queue =
            arrived (joined.offered key ch after) ∧
          (w.isAlive = false →
            w.polled ch (.replicate (c.queue.length + 1) (.receive ch)) =
              c.queue.map .value ++ [.closed]))) ∧
    (∀ before i registration after key path content,
      as = before ++ .finish i registration :: after →
      let v := (source.run before).1
      v.calls[i]? = some (.watchRead key path (.ok content)) →
      v.accepts key registration = false →
      ∃ cause, registration = .error cause ∧ w.channel? i = some (.error (.notify path cause))) ∧
    (∀ before a after i e, as = before ++ a :: after →
      (a = .read i ∨ ∃ registration, a = .finish i registration) →
      w.channel? i = some (.error e) →
      let v := (source.run before).1
      v.step a = ({ v with calls := (v.step a).1.calls }, [])) ∧
    ((∀ c ∈ w.calls, c.isOver = true) →
      (w.run (w.watchers.keys.map .handle ++ [.drop])).1.isAlive = false) := by
  intro source w
  have hsplit : ∀ before a after, as = before ++ a :: after →
      w = (((source.run before).1.step a).1.run after).1 := by
    rintro before a after rfl
    simp only [w, run_fst, List.foldl_append, List.foldl_cons]
  refine ⟨?_, ?_, ?_, ?_, isAlive_drop_of_over⟩
  . intro key
    have hshares := shares_run key disk channels items as
    exact ⟨hshares.begun, hshares.count_keys⟩
  . intro before i registration after key path content has v hcall haccepts ch joined
    have hquits := quits_run disk channels items before
    have hexist := membersExist_run disk channels items before
    have hw := hsplit before (.finish i registration) after has
    refine ⟨?_, ?_⟩
    . rw [channel?_eq_some_iff, hw]
      exact over_run (calls_finish_of_accepts hcall haccepts) rfl after
    . intro hafter
      have hlistens :=
        (Listens.of_finish hexist hquits hcall haccepts).run (hquits.step _) after hafter
      rw [← hw, List.nil_append, List.nil_append] at hlistens
      obtain ⟨c, hc, -, hsender, hcapacity, horder⟩ := hlistens.channel
      refine ⟨fun halive => ⟨hlistens.watcher halive, hlistens.members⟩, ?_, c, hc, hcapacity,
        horder, ?_⟩
      . exact response_offered key ch joined after
      . intro hdead
        exact polled_of_not_hasSender hc (hsender.trans hdead)
  . intro before i registration after key path content has v hcall hrefused
    obtain ⟨cause, hcause, -, hfinish⟩ := finish_of_not_accepts hcall hrefused
    have hover : (v.step (.finish i registration)).1.calls[i]? =
        some (.watching (.error (.notify path cause))) := by
      rw [step, hfinish]
      exact List.getElem?_set_self (List.getElem?_eq_some_iff.1 hcall).1
    refine ⟨cause, hcause, ?_⟩
    rw [channel?_eq_some_iff, hsplit before (.finish i registration) after has]
    exact over_run hover rfl after
  . intro before a after i e has ha hfailed v
    rw [hsplit before a after has] at hfailed
    exact step_of_failed after ha hfailed

/--
Two calls both read the file before either of them has made the watcher, and a third one asks for a
key that there is not. Both get a rewrite of the file. One of them looks at it, and the source is
given up.
-/
def watchedTwice : List FileAction :=
  [.change (.write "$DIR/flags" [49]), .watch "flags", .watch "flags", .watch "limits", .read 0,
    .read 1, .read 2, .finish 1 (.ok flagsEntry), .finish 0 (.ok flagsEntry),
    .change (.write "$DIR/flags" [50]), .look "flags", .handle "flags", .receive 0, .drop]

def flagsSource : FileSource := start .empty [] (.ofList [("flags", "$DIR/flags")])

theorem watchedTwice_shares_watcher :
    let w := (flagsSource.run watchedTwice).1
    beginnings "flags" (flagsSource.run watchedTwice).2 = 1 ∧ w.isAlive = false ∧
      w.polled 0 [.receive 0] = [.closed] ∧
      w.polled 1 [.receive 1, .receive 1] = [.value ⟨"2", .put⟩, .closed] ∧
      w.channel? 2 = some (.error (.keyNotFound "file" "limits")) ∧
      let v := (flagsSource.run (watchedTwice.take 6)).1
      v.step (.read 2) = ({ v with calls := (v.step (.read 2)).1.calls }, []) := by
  have hmain := listeners_share_watcher .empty [] (.ofList [("flags", "$DIR/flags")]) watchedTwice
  rw [← flagsSource] at hmain
  have hdead : (flagsSource.run watchedTwice).1.isAlive = false := by decide +kernel
  have hfailed : (flagsSource.run watchedTwice).1.channel? 2 =
      some (.error (.keyNotFound "file" "limits")) := by decide +kernel
  have hqueues : (flagsSource.run watchedTwice).1.channels.map (·.queue) =
      [[], [⟨"2", .put⟩]] := by decide +kernel
  have hserved : flagsSource.listeners "flags" watchedTwice ≠ [] := by decide +kernel
  have hfirst : let v := (flagsSource.run (watchedTwice.take 7)).1
      v.calls[1]? = some (.watchRead "flags" "$DIR/flags" (.ok "1")) ∧ v.channels.length = 0 := by
    decide +kernel
  have hsecond : let v := (flagsSource.run (watchedTwice.take 8)).1
      v.calls[0]? = some (.watchRead "flags" "$DIR/flags" (.ok "1")) ∧ v.channels.length = 1 := by
    decide +kernel
  have hspared : ∀ n ch, .dropReceiver ch ∉ watchedTwice.drop n := by
    intro n ch h
    have hmem := List.mem_of_mem_drop h
    simp [watchedTwice] at hmem
  -- what these runs come to is known now, and must not be computed again
  generalize flagsSource = source at *
  obtain ⟨hshared, hlisteners, -, hcalls, -⟩ := hmain
  intro w
  obtain ⟨hcall, hlength⟩ := hfirst
  have hlistens := (hlisteners (watchedTwice.take 7) 1 (.ok flagsEntry) (watchedTwice.drop 8)
    "flags" "$DIR/flags" "1" rfl hcall (Bool.or_true _)).2 (hspared _ _)
  obtain ⟨c, hc, -, -, hlast⟩ := hlistens.2.2
  obtain ⟨hcall', hlength'⟩ := hsecond
  have hlistens' := (hlisteners (watchedTwice.take 8) 0 (.ok flagsEntry) (watchedTwice.drop 9)
    "flags" "$DIR/flags" "1" rfl hcall' (Bool.or_true _)).2 (hspared _ _)
  obtain ⟨c', hc', -, -, hlast'⟩ := hlistens'.2.2
  rw [hlength] at hc
  rw [hlength'] at hc'
  have hqueue : c.queue = [] ∧ c'.queue = [⟨"2", .put⟩] := by
    have hzero := congrArg (·[0]?) hqueues
    have hone := congrArg (·[1]?) hqueues
    simp only [List.getElem?_map, hc, hc'] at hzero hone
    exact ⟨Option.some.inj hzero, Option.some.inj hone⟩
  have hfirst := hlast hdead
  have hsecond := hlast' hdead
  rw [hlength, hqueue.1] at hfirst
  rw [hlength', hqueue.2] at hsecond
  refine ⟨?_, hdead, hfirst, hsecond, hfailed, ?_⟩
  . rw [(hshared "flags").1, if_neg hserved]
  . exact hcalls (watchedTwice.take 6) (.read 2) (watchedTwice.drop 7) 2 _ rfl (.inl rfl) hfailed

/--
The file is rewritten eleven times before a listener looks.
-/
def rewrittenOften : List FileAction :=
  ((List.range 11).flatMap fun n =>
    [.change (.write "$DIR/flags" [.ofNat (50 + n)]), .look "flags", .handle "flags"]) ++
  List.replicate 11 (.receive 0)

theorem slow_listener_misses_news :
    let joined := (aboutToWatch.step (.finish 0 (.ok flagsEntry))).1
    let last := (joined.run rewrittenOften).1
    let news := joined.published "flags" rewrittenOften
    let seen := (joined.polled 0 rewrittenOften).filterMap Polled.value?
    last.channel? 0 = some (.ok 0) ∧ last.isAlive = true ∧ news.length = 11 ∧
      seen = news.take 10 ∧ (joined.polled 0 rewrittenOften).getLast? = some .pending ∧
      ¬ ∀ r ∈ news, r ∈ seen := by
  decide +kernel

end FileSource

end Upkeep.Config
