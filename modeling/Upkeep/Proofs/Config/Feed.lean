import Upkeep.Proofs.Config.Loops

/-!
This module contains the proof that a feed loses nothing on its way to the loop that takes values out
of it: whatever else happens in a scene, values only join its queue at the end.
-/

namespace Upkeep.Config

def queueAt (cs : List (Channel α)) (c : Nat) : List α := ((cs[c]?).map (·.queue)).getD []

theorem queueAt_modify (cs : List (Channel α)) (i c : Nat) (f : Channel α → Channel α)
    (hf : ∀ x, x.queue <+: (f x).queue) : queueAt cs c <+: queueAt (cs.modify i f) c := by
  rw [queueAt, queueAt, List.getElem?_modify]
  cases cs[c]? with
  | none => simp
  | some x =>
    by_cases hi : i = c
    . simpa [hi] using hf x
    . simp [hi]

theorem queueAt_modify_ne (cs : List (Channel α)) {i c : Nat} (f : Channel α → Channel α)
    (h : i ≠ c) : queueAt (cs.modify i f) c = queueAt cs c := by
  rw [queueAt, queueAt, List.getElem?_modify]
  cases cs[c]? <;> simp [h]

theorem queueAt_set (cs : List (Channel α)) {i : Nat} (c : Nat) {x y : Channel α}
    (hx : cs[i]? = some x) (hy : x.queue <+: y.queue) :
    queueAt cs c <+: queueAt (cs.set i y) c := by
  by_cases hi : i = c
  . subst hi
    rw [queueAt, queueAt, List.getElem?_set_self (List.getElem?_eq_some_iff.1 hx).1, hx]
    exact hy
  . apply prefix_of_eq
    rw [queueAt, queueAt, List.getElem?_set_ne hi]

theorem queueAt_concat (cs : List (Channel α)) (c : Nat) (x : Channel α) :
    queueAt cs c <+: queueAt (cs ++ [x]) c := by
  by_cases hc : c < cs.length
  . apply prefix_of_eq
    rw [queueAt, queueAt, List.getElem?_append_left hc]
  . rw [queueAt, List.getElem?_eq_none (Nat.le_of_not_lt hc)]
    exact List.nil_prefix

theorem Channel.queue_send (c : Channel α) (x : α) : c.queue <+: (c.send x).1.queue := by
  unfold send
  split
  . exact List.prefix_refl _
  . split
    . exact List.prefix_append _ _
    . exact List.prefix_refl _

namespace Hub

theorem queueAt_offer (key : String) (x : α) (h : Hub) (cs : List (Channel α)) (i c : Nat) :
    queueAt cs c <+: queueAt (h.offer key x cs i).2.1 c := by
  unfold offer
  split
  . next ch hch =>
    have hsend := ch.queue_send x
    split
    . next ch' heq =>
      rw [heq] at hsend
      exact queueAt_set cs c hch hsend
    . exact List.prefix_refl _
    . exact List.prefix_refl _
  . exact List.prefix_refl _

theorem queueAt_publish (key : String) (x : α) (h : Hub) (cs : List (Channel α)) (c : Nat) :
    queueAt cs c <+: queueAt (h.publish key x cs).2.1 c := by
  unfold publish
  refine prefix_foldl (fun s : Hub × List (Channel α) × List Event => queueAt s.2.1 c) _ h.members
    ({ h with members := [] }, cs, []) ?_
  intro s i
  exact s.1.queueAt_offer key x s.2.1 i c

end Hub

/--
Whether an action of a source leaves the receiver of a channel alone.
-/
def FileAction.Spares (c : Nat) : FileAction → Prop
  | .receive i | .dropReceiver i => i ≠ c
  | _ => True

namespace FileSource

theorem channels_notify (w : FileSource) (ns : List (String × Notice)) :
    (ns.foldl (fun w n => w.notify n.1 n.2) w).channels = w.channels := by
  induction ns generalizing w with
  | nil => rfl
  | cons n ns ih => exact ih (w.notify n.1 n.2)

theorem channels_read (w : FileSource) (i : Nat) : (w.read i).channels = w.channels := by
  unfold read
  split
  . split <;> rfl
  . split <;> rfl
  . rfl

theorem queueAt_finish (w : FileSource) (i : Nat) (registration : Disk.Registration) (c : Nat) :
    queueAt w.channels c <+: queueAt (w.finish i registration).1.channels c := by
  unfold finish
  split
  . unfold finishGet
    split
    . exact List.prefix_refl _
    . split <;> exact List.prefix_refl _
  . unfold finishWatch
    split
    . exact queueAt_concat _ _ _
    . exact queueAt_concat _ _ _
    . exact List.prefix_refl _
  . exact List.prefix_refl _
  . exact List.prefix_refl _

theorem channels_look (w : FileSource) (key : String) : (w.look key).channels = w.channels := by
  unfold look
  split
  . split <;> rfl
  . rfl

theorem queueAt_handle (w : FileSource) (key : String) (c : Nat) :
    queueAt w.channels c <+: queueAt (w.handle key).1.channels c := by
  unfold handle
  split
  . next x _ =>
    split
    . exact List.prefix_refl _
    . dsimp only
      split
      . exact x.hub.queueAt_publish key _ w.channels c
      . exact List.prefix_refl _
  . exact List.prefix_refl _

theorem queueAt_drop (w : FileSource) (c : Nat) :
    queueAt w.channels c <+: queueAt w.drop.1.channels c := by
  unfold drop
  split
  . apply prefix_foldl fun cs => queueAt cs c
    intro cs i
    exact queueAt_modify cs i c _ fun _ => List.prefix_refl _
  . exact List.prefix_refl _

theorem queueAt_step (w : FileSource) (a : FileAction) (c : Nat) (ha : a.Spares c) :
    queueAt w.channels c <+: queueAt (w.step a).1.channels c := by
  cases a with
  | change d =>
    simp only [step, change, channels_notify]
    exact List.prefix_refl _
  | get key | watch key =>
    simp only [step, begin]
    split <;> exact List.prefix_refl _
  | read i =>
    apply prefix_of_eq
    rw [step, channels_read]
  | finish i registration => exact w.queueAt_finish i registration c
  | look key =>
    apply prefix_of_eq
    rw [step, channels_look]
  | handle key => exact w.queueAt_handle key c
  | receive i | dropReceiver i =>
    apply prefix_of_eq
    rw [step, queueAt_modify_ne _ _ ha]
  | drop => exact w.queueAt_drop c
  | notify key n => exact List.prefix_refl _

end FileSource

namespace Dispatcher

variable {d : Dispatcher α} {loop feed : Nat}

theorem channels_dispatch (d : Dispatcher α) (x : α) :
    (d.dispatch x).1.channels = d.channels := rfl

theorem receive_of_ne (hd : OneLoop d) (hloop : d.loops[loop]? = some ⟨feed, .running⟩) (i : Nat)
    (hi : i ≠ loop) : (d.receive i).1 = d := by
  -- a second loop that runs would be this one
  unfold receive
  split
  . next feed' hrunning =>
    exact absurd (hd.single i loop _ _ hrunning hloop (by simp) (by simp)) hi
  . rfl

theorem clear_of_running (hd : OneLoop d) (hloop : d.loops[loop]? = some ⟨feed, .running⟩)
    (i : Nat) : d.clear i = d := by
  unfold clear
  split
  . next feed' hending _ =>
    rw [hd.single i loop _ _ hending hloop (by simp) (by simp), hloop] at hending
    simp at hending
  . rfl

theorem queueAt_step (hd : OneLoop d) (hloop : d.loops[loop]? = some ⟨feed, .running⟩)
    (a : DispatcherAction α) (ha : a ≠ .receive loop) (c : Nat) :
    queueAt d.channels c <+: queueAt (d.step a).1.channels c := by
  cases a with
  | makeChannel n => exact queueAt_concat _ _ _
  | send i x => exact queueAt_modify _ _ _ _ fun ch => ch.queue_send x
  | dropSender i => exact queueAt_modify _ _ _ _ fun _ => List.prefix_refl _
  | receive i =>
    have hi : i ≠ loop := fun h => ha (congrArg _ h)
    simp only [step, receive_of_ne hd hloop i hi]
    exact List.prefix_refl _
  | clear i =>
    simp only [step, clear_of_running hd hloop i]
    exact List.prefix_refl _
  | subscribe =>
    simp only [step, subscribe]
    split <;> exact List.prefix_refl _
  | poll i =>
    simp only [step, poll]
    split <;> exact List.prefix_refl _
  | acquire i =>
    simp only [step, acquire]
    split
    . split <;> exact List.prefix_refl _
    . exact List.prefix_refl _
  | opened i r =>
    simp only [step, opened]
    split
    . cases r <;> exact List.prefix_refl _
    . exact List.prefix_refl _
  | finish i =>
    simp only [step, finish]
    split
    . split <;> exact List.prefix_refl _
    . exact List.prefix_refl _
  | drop i =>
    simp only [step, drop]
    split <;> exact List.prefix_refl _
  | unsubscribe | start | clone => exact List.prefix_refl _

end Dispatcher

end Upkeep.Config
