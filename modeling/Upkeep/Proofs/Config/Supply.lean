import Upkeep.Proofs.Config.Feed
import Upkeep.Proofs.Config.Watcher

/-!
This module contains what a watcher hands to one of the channels of its hub. The channel gets all
news in order, but for those that find it full, and the last news always tells what the watcher
knows.
-/

namespace Upkeep.Config

/--
Whether the receiver of a channel is there.
-/
def hasReceiverAt (cs : List (Channel α)) (i : Nat) : Bool := (cs[i]?).any (·.hasReceiver)

/--
Whether there is room in a channel.
-/
def hasRoomAt (cs : List (Channel α)) (i : Nat) : Bool :=
  (cs[i]?).any fun c => c.queue.length < c.capacity

theorem Channel.send_cases (c : Channel α) (x : α) :
    c.hasReceiver = false ∧ c.send x = (c, .closed) ∨
    c.hasReceiver = true ∧
      (c.queue.length < c.capacity ∧ c.send x = ({ c with queue := c.queue ++ [x] }, .ok) ∨
        ¬ c.queue.length < c.capacity ∧ c.send x = (c, .full)) := by
  unfold send
  cases hc : c.hasReceiver with
  | false => simp
  | true => by_cases hroom : c.queue.length < c.capacity <;> simp [hroom]

theorem Channel.hasReceiver_send (c : Channel α) (x : α) :
    (c.send x).1.hasReceiver = c.hasReceiver := by
  obtain ⟨-, hsend⟩ | ⟨-, ⟨-, hsend⟩ | ⟨-, hsend⟩⟩ := c.send_cases x <;> rw [hsend]

theorem Channel.send_of_hasReceiver {c : Channel α} (hc : c.hasReceiver = true) (x : α) :
    (c.send x).1 =
      { c with queue := c.queue ++ if c.queue.length < c.capacity then [x] else [] } := by
  obtain ⟨hnone, -⟩ | ⟨-, ⟨hroom, hsend⟩ | ⟨hroom, hsend⟩⟩ := c.send_cases x
  . simp [hc] at hnone
  . rw [hsend, if_pos hroom]
  . rw [hsend, if_neg hroom, List.append_nil]

theorem hasReceiverAt_modify_send (cs : List (Channel α)) (i : Nat) (x : α) :
    hasReceiverAt (cs.modify i fun c => (c.send x).1) = hasReceiverAt cs := by
  funext j
  rw [hasReceiverAt, hasReceiverAt, List.getElem?_modify]
  cases cs[j]? with
  | none => rfl
  | some c =>
    by_cases hij : i = j
    . simp [hij, c.hasReceiver_send]
    . simp [hij]

namespace Hub

theorem offer_fst (key : String) (x : α) (h : Hub) (cs : List (Channel α)) (i : Nat) :
    (h.offer key x cs i).1.members = h.members ++ (if hasReceiverAt cs i then [i] else []) ∧
      (h.offer key x cs i).2.1 = cs.modify i fun c => (c.send x).1 := by
  unfold offer
  cases hc : cs[i]? with
  | none =>
    have hsame := List.modify_eq_self (f := fun c : Channel α => (c.send x).1)
      (List.getElem?_eq_none_iff.1 hc)
    simp [hasReceiverAt, hc, hsame]
  | some c =>
    rw [modify_eq_set hc]
    obtain ⟨hr, hsend⟩ | ⟨hr, ⟨-, hsend⟩ | ⟨-, hsend⟩⟩ := c.send_cases x <;>
      simp [hasReceiverAt, hc, hr, hsend, join, set_eq_self hc]

theorem foldl_offer (key : String) (x : α)
    {f : Hub × List (Channel α) × List Event → Nat → Hub × List (Channel α) × List Event}
    (hhub : ∀ s i, (f s i).1 = (s.1.offer key x s.2.1 i).1)
    (hchannels : ∀ s i, (f s i).2.1 = (s.1.offer key x s.2.1 i).2.1)
    (is : List Nat) (s : Hub × List (Channel α) × List Event) :
    (is.foldl f s).1.members = s.1.members ++ is.filter (hasReceiverAt s.2.1) ∧
      (is.foldl f s).2.1 = is.foldl (fun cs i => cs.modify i fun c => (c.send x).1) s.2.1 := by
  induction is generalizing s with
  | nil => simp
  | cons i is ih =>
    obtain ⟨hmembers, hsent⟩ := s.1.offer_fst key x s.2.1 i
    obtain ⟨hrest, hlast⟩ := ih (f s i)
    refine ⟨hrest.trans ?_, hlast.trans ?_⟩
    . rw [hhub, hchannels, hmembers, hsent, hasReceiverAt_modify_send, List.append_assoc,
        List.filter_cons]
      split <;> rfl
    . rw [hchannels, hsent]
      rfl

theorem publish_fst (key : String) (x : α) (h : Hub) (cs : List (Channel α)) :
    (h.publish key x cs).1.members = h.members.filter (hasReceiverAt cs) ∧
      (h.publish key x cs).2.1 =
        h.members.foldl (fun cs i => cs.modify i fun c => (c.send x).1) cs := by
  unfold publish
  refine foldl_offer key x ?_ ?_ h.members ({ h with members := [] }, cs, [])
  . intro s i
    rfl
  . intro s i
    rfl

theorem count_pass (key : String) (h : Hub) (x : Option α) {cs : List (Channel α)} {i : Nat}
    (hi : hasReceiverAt cs i = true) :
    (h.pass key x cs).1.members.count i = h.members.count i := by
  cases x with
  | none => rfl
  | some x =>
    rw [pass]
    dsimp only
    rw [(h.publish_fst key x cs).1, List.count_filter hi]

theorem getElem?_pass (key : String) (h : Hub) (x : Option α) (cs : List (Channel α)) {i : Nat}
    (hi : h.members.count i ≤ 1) :
    (h.pass key x cs).2[i]? =
      if i ∈ h.members then (cs[i]?).map fun c => x.elim c fun x => (c.send x).1 else cs[i]? := by
  cases x with
  | none => simp [pass]
  | some x =>
    rw [pass]
    dsimp only
    rw [(h.publish_fst key x cs).2, getElem?_foldl_modify_of_count_le_one _ _ _ hi]
    rfl

theorem length_pass (key : String) (h : Hub) (x : Option α) (cs : List (Channel α)) :
    (h.pass key x cs).2.length = cs.length := by
  cases x with
  | none => rfl
  | some x =>
    rw [pass]
    dsimp only
    rw [(h.publish_fst key x cs).2]
    exact length_foldl_modify _ id _ _

theorem members_pass_subset (key : String) (h : Hub) (x : Option α) (cs : List (Channel α)) :
    (h.pass key x cs).1.members ⊆ h.members := by
  cases x with
  | none => exact List.Subset.refl _
  | some x =>
    rw [pass]
    dsimp only
    rw [(h.publish_fst key x cs).1]
    exact List.filter_sublist.subset

end Hub

namespace FileState

/--
The news that tell a state.
-/
def response : FileState → Response
  | .present c => ⟨c, .put⟩
  | .missing => .deleted

theorem response_injective {s s' : FileState} (h : s.response = s'.response) : s = s' := by
  cases s <;> cases s' <;> simp [response, Response.deleted] at h ⊢
  exact h

/--
There is a response if the state after a notice was taken into account is another one than before,
and then it tells of this state.
-/
def Shows (s : FileState) (news : News) : Prop :=
  news.response = if news.state = s then none else some news.state.response

theorem shows_unchanged (s : FileState) (events : List Event) : s.Shows (s.unchanged events) := by
  simp [Shows, unchanged]

theorem shows_remove (key path : String) (s : FileState) : s.Shows (s.remove key path) := by
  unfold remove
  split
  . exact s.shows_unchanged _
  . next hs => simp [Shows, response, Ne.symm hs]

theorem shows_write (key path c : String) (s : FileState) : s.Shows (s.write key path c) := by
  unfold write
  split
  . exact s.shows_unchanged _
  . next hs => simp [Shows, response, Ne.symm hs]

theorem shows_handle (key path name : String) (s : FileState) (n : Notice)
    (reading : Except Fault String) : s.Shows (s.handle key path name n reading) := by
  unfold handle
  split
  . exact s.shows_unchanged _
  . next names kind =>
    split
    . cases kind with
      | removed => exact shows_remove key path s
      | other => exact s.shows_unchanged _
      | written =>
        unfold update
        dsimp only
        split
        . exact shows_write key path _ s
        . exact shows_remove key path s
        . exact s.shows_unchanged _
    . exact s.shows_unchanged _

/--
The state after a notice was taken into account is that of the response, if there is one, and
otherwise as it was.
-/
def Tells (s : FileState) (news : News) : Prop :=
  news.state.response = news.response.getD s.response

theorem Shows.tells {s : FileState} {news : News} (h : s.Shows news) : s.Tells news := by
  rw [Tells, h]
  split
  . next hs => rw [hs, Option.getD_none]
  . rfl

theorem tells_handle (key path name : String) (s : FileState) (n : Notice)
    (reading : Except Fault String) : s.Tells (s.handle key path name n reading) :=
  (s.shows_handle key path name n reading).tells

end FileState

/--
News that a watcher hands to a channel, and whether there is room for them.
-/
structure Delivery where
  response : Response
  hasRoom : Bool
  deriving DecidableEq

/--
The news that get into the channel.
-/
def arrived (ds : List Delivery) : List Response := (ds.filter (·.hasRoom)).map (·.response)

theorem arrived_append (ds es : List Delivery) : arrived (ds ++ es) = arrived ds ++ arrived es := by
  simp [arrived]

theorem arrived_singleton (d : Delivery) :
    arrived [d] = if d.hasRoom then [d.response] else [] := by
  obtain ⟨r, hasRoom⟩ := d
  cases hasRoom <;> rfl

/--
The news that were handed over last, if any were since there was a state.
-/
def newest (s : FileState) (ds : List Delivery) : Response :=
  ((ds.getLast?).map (·.response)).getD s.response

namespace FileSource

/--
The news that the watcher of a key has as soon as it handles what it has taken.
-/
def news? (key : String) (w : FileSource) : Option Response := do
  let x ← w.watchers.get? key
  let (n, reading) ← x.pending
  (x.news key n reading).response

/--
The news that the watcher of a key has in an action.
-/
def publishes (key : String) (w : FileSource) : FileAction → List Response
  | .handle k => if k = key then (w.news? key).toList else []
  | _ => []

/--
What the watcher of a key hands to a channel of its hub in an action.
-/
def deliveries (key : String) (feed : Nat) (w : FileSource) : FileAction → List Delivery
  | .handle k =>
    if k = key then (w.news? key).toList.map fun r => ⟨r, hasRoomAt w.channels feed⟩ else []
  | _ => []

/--
A watcher supplies a channel: both ends of it are there, it is in the hub of this watcher and in no
other, and the watcher knows what it has handed over last.
-/
structure Supplies (key : String) (feed : Nat) (s : FileState) (w : FileSource)
    (h : List Delivery) : Prop where
  channel : ∃ c, w.channels[feed]? = some c ∧ c.hasSender = true ∧ c.hasReceiver = true
  watcher : ∃ x, w.watchers.get? key = some x ∧ x.state.response = newest s h
  members : ∀ k x, w.watchers.get? k = some x →
    x.hub.members.count feed = if k = key then 1 else 0

variable {key : String} {feed : Nat} {s : FileState} {w : FileSource} {h : List Delivery}
variable {a : FileAction}

theorem channels_finish_of_accepts {i : Nat} {k path content : String}
    {registration : Disk.Registration}
    (hcall : w.calls[i]? = some (.watchRead k path (.ok content)))
    (haccepts : w.accepts k registration = true) :
    (w.finish i registration).1.channels = w.channels ++ [.empty channelCapacity] := by
  obtain ⟨x, cache, hfinish, -⟩ := finish_of_accepts hcall haccepts
  rw [hfinish]
  rfl

theorem calls_finish_of_accepts {i : Nat} {k path content : String}
    {registration : Disk.Registration}
    (hcall : w.calls[i]? = some (.watchRead k path (.ok content)))
    (haccepts : w.accepts k registration = true) :
    (w.finish i registration).1.calls[i]? = some (.watching (.ok w.channels.length)) := by
  obtain ⟨x, cache, hfinish, -⟩ := finish_of_accepts hcall haccepts
  rw [hfinish]
  exact List.getElem?_set_self (List.getElem?_eq_some_iff.1 hcall).1

theorem channels_finish (w : FileSource) (i : Nat) (registration : Disk.Registration) :
    ∃ cs, (w.finish i registration).1.channels = w.channels ++ cs := by
  have hstill : ∃ cs, w.channels = w.channels ++ cs := ⟨[], (List.append_nil _).symm⟩
  unfold finish
  split
  . unfold finishGet
    split
    . exact hstill
    . split <;> exact hstill
  . unfold finishWatch
    split
    . exact ⟨_, rfl⟩
    . exact ⟨_, rfl⟩
    . exact hstill
  . exact hstill
  . exact hstill

theorem news?_of_pending {x : Watcher} (hx : w.watchers.get? key = some x) {n : Notice}
    {reading : Except Fault String} (hpending : x.pending = some (n, reading)) :
    w.news? key = (x.news key n reading).response := by
  simp [news?, hx, hpending]

theorem idle_or_taken (w : FileSource) (k : String) :
    (∀ x, w.watchers.get? k = some x → x.pending = none) ∨
      ∃ x n reading, w.watchers.get? k = some x ∧ x.pending = some (n, reading) := by
  cases hx : w.watchers.get? k with
  | none => exact .inl (by simp)
  | some x =>
    cases hpending : x.pending with
    | none => exact .inl (by simp [hpending])
    | some taken => exact .inr ⟨x, taken.1, taken.2, rfl, hpending⟩

theorem handle_of_idle {k : String}
    (hidle : ∀ x, w.watchers.get? k = some x → x.pending = none) :
    (w.handle k).1 = w ∧ w.news? k = none := by
  unfold handle news?
  cases hx : w.watchers.get? k with
  | none => exact ⟨rfl, rfl⟩
  | some x => simp [hidle x hx]

theorem publishes_of_idle {x : Watcher} (hx : w.watchers.get? key = some x)
    (hidle : a = .handle key → x.pending = none) : w.publishes key a = [] := by
  cases a with
  | handle k =>
    rw [publishes]
    split
    . next hk =>
      subst hk
      have hnone : w.news? k = none := by simp [news?, hx, hidle rfl]
      rw [hnone]
      rfl
    . rfl
  | _ => rfl

theorem deliveries_eq_map (key : String) (feed : Nat) (w : FileSource) (a : FileAction) :
    w.deliveries key feed a = (w.publishes key a).map fun r => ⟨r, hasRoomAt w.channels feed⟩ := by
  cases a with
  | handle k =>
    rw [deliveries, publishes]
    split <;> rfl
  | _ => rfl

theorem deliveries_of_idle {x : Watcher} (hx : w.watchers.get? key = some x)
    (hidle : a = .handle key → x.pending = none) : w.deliveries key feed a = [] := by
  rw [deliveries_eq_map, publishes_of_idle hx hidle, List.map_nil]

theorem Supplies.channel_handle (hw : w.Supplies key feed s h) {c : Channel Response}
    (hc : w.channels[feed]? = some c) (hreceiver : c.hasReceiver = true) (k : String) :
    (w.handle k).1.channels[feed]? =
      some { c with queue := c.queue ++ arrived (w.deliveries key feed (.handle k)) } := by
  obtain hidle | ⟨x, n, reading, hx, hpending⟩ := w.idle_or_taken k
  . obtain ⟨hstill, hnone⟩ := handle_of_idle hidle
    rw [hstill, hc, deliveries]
    split
    . next hk => simp [← hk, hnone, arrived]
    . simp [arrived]
  . have hcount := hw.members k x hx
    have hle : x.hub.members.count feed ≤ 1 := by
      rw [hcount]
      split <;> omega
    rw [(handle_of_pending hx hpending).1, Hub.getElem?_pass _ _ _ _ hle, hc, deliveries]
    by_cases hk : k = key
    . subst hk
      have hmem : feed ∈ x.hub.members := List.count_pos_iff.1 (by simp [hcount])
      rw [if_pos hmem, if_pos rfl, news?_of_pending hx hpending]
      cases (x.news k n reading).response with
      | none => simp [arrived]
      | some r =>
        simp [arrived_singleton, hasRoomAt, hc, Channel.send_of_hasReceiver hreceiver]
    . have hmem : feed ∉ x.hub.members := by
        rw [← List.count_eq_zero, hcount, if_neg hk]
      rw [if_neg hmem, if_neg hk]
      simp [arrived]

theorem Supplies.channel_step (hw : w.Supplies key feed s h) (ha : a.Spares feed)
    (hdrop : a ≠ .drop) {c : Channel Response} (hc : w.channels[feed]? = some c)
    (hreceiver : c.hasReceiver = true) :
    (w.step a).1.channels[feed]? =
      some { c with queue := c.queue ++ arrived (w.deliveries key feed a) } := by
  have hstill : some { c with queue := c.queue ++ [] } = w.channels[feed]? := by
    rw [List.append_nil, hc]
  cases a with
  | change d =>
    rw [step, change, channels_notify]
    exact hstill.symm
  | get | watch =>
    simp only [step, begin]
    split <;> exact hstill.symm
  | read i =>
    rw [step, channels_read]
    exact hstill.symm
  | finish i registration =>
    obtain ⟨cs, hcs⟩ := w.channels_finish i registration
    rw [step, hcs, List.getElem?_append_left (List.getElem?_eq_some_iff.1 hc).1]
    exact hstill.symm
  | look k =>
    rw [step, channels_look]
    exact hstill.symm
  | handle k => exact hw.channel_handle hc hreceiver k
  | receive i | dropReceiver i =>
    have hi : i ≠ feed := ha
    simp only [step, List.getElem?_modify, if_neg hi, Option.map_eq_map, Option.map_id']
    exact hstill.symm
  | drop => exact absurd rfl hdrop
  | notify k n => exact hstill.symm

theorem Supplies.count_step (hw : w.Supplies key feed s h) {k : String} {x x' : Watcher}
    (hmove : x.Move k w a x') : x'.hub.members.count feed = x.hub.members.count feed := by
  obtain ⟨c, hc, -, hreceiver⟩ := hw.channel
  cases hmove with
  | hear | look => rfl
  | join i path content registration hcall =>
    have hne : w.channels.length ≠ feed :=
      Nat.ne_of_gt (List.getElem?_eq_some_iff.1 hc).1
    simp [Hub.join, List.count_append, hne]
  | handle n reading hpending =>
    have hreceiverAt : hasReceiverAt w.channels feed = true := by simp [hasReceiverAt, hc, hreceiver]
    exact Hub.count_pass _ _ _ hreceiverAt

theorem Supplies.members_step (hw : w.Supplies key feed s h) (k : String) (x' : Watcher)
    (hx' : (w.step a).1.watchers.get? k = some x') :
    x'.hub.members.count feed = if k = key then 1 else 0 := by
  have heffect := w.watcher_effect k a
  rw [hx'] at heffect
  cases hx : w.watchers.get? k with
  | some x =>
    rw [hx] at heffect
    cases heffect with
    | move _ _ _ hmove => rw [hw.count_step hmove, hw.members k x hx]
  | none =>
    rw [hx] at heffect
    -- the watcher is a new one, with a channel that was not there before
    obtain ⟨c, hc, -, -⟩ := hw.channel
    obtain ⟨y, hy, -⟩ := hw.watcher
    have hk : k ≠ key := by
      rintro rfl
      rw [hx] at hy
      cases hy
    have hne : w.channels.length ≠ feed := Nat.ne_of_gt (List.getElem?_eq_some_iff.1 hc).1
    cases heffect with
    | make i path content entry hcall =>
      simp [Hub.join, Hub.empty, hne, hk]

theorem newest_append (s : FileState) (h ds : List Delivery) :
    newest s (h ++ ds) = ((ds.getLast?).map (·.response)).getD (newest s h) := by
  rw [newest, List.getLast?_append]
  cases ds.getLast? <;> rfl

theorem Supplies.watcher_step (hw : w.Supplies key feed s h) (hdrop : a ≠ .drop) :
    ∃ x', (w.step a).1.watchers.get? key = some x' ∧
      x'.state.response = newest s (h ++ w.deliveries key feed a) := by
  obtain ⟨x, hx, hstate⟩ := hw.watcher
  have heffect := w.watcher_effect key a
  rw [hx] at heffect
  generalize (w.step a).1.watchers.get? key = o at heffect ⊢
  cases heffect with
  | drop => exact absurd rfl hdrop
  | move _ _ x' hmove =>
    refine ⟨x', rfl, ?_⟩
    rw [newest_append, ← hstate]
    cases hmove with
    | hear _ hidle =>
      rw [deliveries_of_idle hx hidle]
      rfl
    | join | look => rfl
    | handle n reading hpending =>
      have htells : (x.news key n reading).state.response =
          (x.news key n reading).response.getD x.state.response :=
        FileState.tells_handle key x.path x.entry.name x.state n reading
      rw [deliveries, if_pos rfl, news?_of_pending hx hpending]
      dsimp only
      rw [htells]
      cases (x.news key n reading).response <;> rfl

/--
Whatever happens to the source, a watcher goes on to supply a channel.
-/
theorem Supplies.step (hw : w.Supplies key feed s h) (ha : a.Spares feed) (hdrop : a ≠ .drop) :
    (w.step a).1.Supplies key feed s (h ++ w.deliveries key feed a) := by
  obtain ⟨c, hc, hsender, hreceiver⟩ := hw.channel
  exact ⟨⟨_, hw.channel_step ha hdrop hc hreceiver, hsender, hreceiver⟩, hw.watcher_step hdrop,
    hw.members_step⟩

/--
The hubs of a source have only channels that there are.
-/
def MembersExist (w : FileSource) : Prop :=
  ∀ k x, w.watchers.get? k = some x → ∀ i ∈ x.hub.members, i < w.channels.length

theorem length_channels_handle (w : FileSource) (k : String) :
    (w.handle k).1.channels.length = w.channels.length := by
  obtain hidle | ⟨x, n, reading, hx, hpending⟩ := w.idle_or_taken k
  . rw [(handle_of_idle hidle).1]
  . rw [(handle_of_pending hx hpending).1, Hub.length_pass]

theorem length_channels_step (w : FileSource) (a : FileAction) :
    w.channels.length ≤ (w.step a).1.channels.length := by
  cases a with
  | change d =>
    have hsame : (w.step (.change d)).1.channels = w.channels := channels_notify _ _
    exact Nat.le_of_eq (congrArg List.length hsame.symm)
  | get | watch =>
    simp only [step, begin]
    split <;> exact Nat.le_refl _
  | read i => exact Nat.le_of_eq (congrArg List.length (w.channels_read i).symm)
  | finish i registration =>
    obtain ⟨cs, hcs⟩ := w.channels_finish i registration
    rw [step, hcs, List.length_append]
    exact Nat.le_add_right _ _
  | look k => exact Nat.le_of_eq (congrArg List.length (w.channels_look k).symm)
  | handle k => exact Nat.le_of_eq (w.length_channels_handle k).symm
  | receive i | dropReceiver i => simp [step]
  | drop =>
    simp only [step, drop]
    split
    . exact Nat.le_of_eq (length_foldl_modify _ id _ _).symm
    . exact Nat.le_refl _
  | notify k n => exact Nat.le_refl _

theorem MembersExist.step (hw : w.MembersExist) (a : FileAction) : (w.step a).1.MembersExist := by
  intro k x' hx' i hi
  have heffect := w.watcher_effect k a
  have hlength := w.length_channels_step a
  rw [hx'] at heffect
  cases hx : w.watchers.get? k with
  | some x =>
    rw [hx] at heffect
    cases heffect with
    | move _ _ _ hmove =>
      cases hmove with
      | hear | look => exact Nat.lt_of_lt_of_le (hw k x hx i hi) hlength
      | join j path content registration hcall =>
        have haccepts : w.accepts k registration = true := by simp [accepts, hx]
        rw [FileSource.step, channels_finish_of_accepts hcall haccepts, List.length_append]
        rcases List.mem_append.1 hi with hi | hi
        . exact Nat.lt_add_right _ (hw k x hx i hi)
        . rw [List.mem_singleton.1 hi]
          exact Nat.lt_succ_self _
      | handle n reading hpending =>
        have hmem := Hub.members_pass_subset _ _ _ _ hi
        exact Nat.lt_of_lt_of_le (hw k x hx i hmem) hlength
  | none =>
    rw [hx] at heffect
    cases heffect with
    | make j path content entry hcall =>
      have haccepts : w.accepts k (.ok entry) = true := Bool.or_true _
      rw [FileSource.step, channels_finish_of_accepts hcall haccepts, List.length_append,
        List.mem_singleton.1 hi]
      exact Nat.lt_succ_self _

theorem watchers_finish_of_accepts {i : Nat} {path content : String}
    {registration : Disk.Registration}
    (hcall : w.calls[i]? = some (.watchRead key path (.ok content)))
    (haccepts : w.accepts key registration = true) :
    ∃ x, (w.finish i registration).1.watchers = w.watchers.insert key x ∧
      x.hub.members =
        (((w.watchers.get? key).map (·.hub.members)).getD []) ++ [w.channels.length] := by
  obtain ⟨x, cache, hfinish, hmembers⟩ := finish_of_accepts hcall haccepts
  exact ⟨_, congrArg FileSource.watchers hfinish, congrArg (· ++ [w.channels.length]) hmembers⟩

/--
The channel that a call to watch a file makes is supplied from then on.
-/
theorem supplies_finish (hw : w.MembersExist) {i : Nat} {path content : String}
    {registration : Disk.Registration}
    (hcall : w.calls[i]? = some (.watchRead key path (.ok content)))
    (haccepts : w.accepts key registration = true) :
    ∃ x, (w.step (.finish i registration)).1.watchers.get? key = some x ∧
      (w.step (.finish i registration)).1.Supplies key w.channels.length x.state [] := by
  obtain ⟨x, hwatchers, hmembers⟩ := watchers_finish_of_accepts hcall haccepts
  have hfresh : ∀ k y, w.watchers.get? k = some y → y.hub.members.count w.channels.length = 0 := by
    intro k y hy
    rw [List.count_eq_zero]
    intro hmem
    exact Nat.lt_irrefl _ (hw k y hy _ hmem)
  have hx : (w.step (.finish i registration)).1.watchers.get? key = some x := by
    rw [step, hwatchers, Dict.get?_insert_self]
  refine ⟨x, hx, ?_, ⟨x, hx, rfl⟩, ?_⟩
  . refine ⟨.empty channelCapacity, ?_, rfl, rfl⟩
    rw [step, channels_finish_of_accepts hcall haccepts, List.getElem?_concat_length]
  . intro k y hy
    rw [step, hwatchers, Dict.get?_insert] at hy
    by_cases hk : k = key
    . rw [if_pos hk] at hy
      rw [if_pos hk, ← Option.some.inj hy, hmembers, List.count_append]
      cases hold : w.watchers.get? key with
      | none => simp
      | some z => simp [hfresh key z hold]
    . rw [if_neg hk] at hy
      rw [if_neg hk, hfresh k y hy]

end FileSource

end Upkeep.Config
