import Upkeep.Config.FileSource
import Upkeep.Proofs.Lists
import Upkeep.Proofs.Run

/-!
This module contains what can happen to the watcher of a key, so that the proofs about watchers go by
cases on this and do not open the step function of the source again.
-/

namespace Upkeep.Config

/--
Hands an event to all channels of a hub, if there is one.
-/
def Hub.pass (key : String) (h : Hub) (x : Option α) (cs : List (Channel α)) :
    Hub × List (Channel α) :=
  match x with
  | some x => ((h.publish key x cs).1, (h.publish key x cs).2.1)
  | none => (h, cs)

/--
What a watcher makes of a notice together with what the file read as.
-/
def Watcher.news (key : String) (x : Watcher) (n : Notice) (reading : Except Fault String) : News :=
  x.state.handle key x.path x.entry.name n reading

/--
Whether a call is one to watch a file.
-/
def FileCall.isWatch : FileCall → Bool
  | .watch _ | .watchRead .. | .watching _ => true
  | _ => false

namespace FileSource

/--
The notices that an action gives to a watcher of a key.
-/
def told (key : String) (w : FileSource) (x : Watcher) : FileAction → List Notice
  | .change c => ((w.disk.change c).2.filter (·.directory = x.entry.directory)).map (noticeFor x)
  | .notify k n => if k = key then [n] else []
  | _ => []

end FileSource

/--
What can happen to the watcher of a key: it is told something, one more joins its hub, it takes a
notice, or it handles the one that it has taken.
-/
inductive Watcher.Move (key : String) (w : FileSource) (x : Watcher) :
    FileAction → Watcher → Prop where
  | hear (a : FileAction) (hidle : a = .handle key → x.pending = none) :
    Move key w x a { x with notices := x.notices ++ w.told key x a }
  | join (i : Nat) (path content : String) (registration : Disk.Registration)
    (hcall : w.calls[i]? = some (.watchRead key path (.ok content))) :
    Move key w x (.finish i registration) { x with hub := x.hub.join w.channels.length }
  | look (n : Notice) (rest : List Notice) (hpending : x.pending = none)
    (hnotices : x.notices = n :: rest) :
    Move key w x (.look key)
      { x with notices := rest, pending := some (n, w.disk.read x.path) }
  | handle (n : Notice) (reading : Except Fault String) (hpending : x.pending = some (n, reading)) :
    Move key w x (.handle key)
      { x with
        state := (x.news key n reading).state, pending := none
        hub := (x.hub.pass key (x.news key n reading).response w.channels).1 }

theorem Watcher.Move.path {key : String} {w : FileSource} {x x' : Watcher} {a : FileAction}
    (hmove : x.Move key w a x') : x'.path = x.path := by
  cases hmove <;> rfl

namespace FileSource

/--
What an action does to the watcher of a key, if there is one before or after it.
-/
inductive WatcherEffect (key : String) (w : FileSource) :
    FileAction → Option Watcher → Option Watcher → Prop where
  | absent (a : FileAction) : WatcherEffect key w a none none
  | make (i : Nat) (path content : String) (entry : Disk.Entry)
    (hcall : w.calls[i]? = some (.watchRead key path (.ok content))) :
    WatcherEffect key w (.finish i (.ok entry)) none
      (some
        { path, entry, state := .present content, notices := [], pending := none
          hub := Hub.empty.join w.channels.length })
  | move (a : FileAction) (x x' : Watcher) (hmove : x.Move key w a x') :
    WatcherEffect key w a (some x) (some x')
  | drop (o : Option Watcher) (hidle : w.isIdle = true) : WatcherEffect key w .drop o none

variable {key : String} {w : FileSource} {a : FileAction}

theorem effect_of_still (o : Option Watcher) (htold : ∀ x, w.told key x a = [])
    (hidle : a = .handle key → ∀ x, o = some x → x.pending = none) :
    w.WatcherEffect key a o o := by
  cases o with
  | none => exact .absent a
  | some x =>
    have hhear := Watcher.Move.hear (w := w) a fun ha => hidle ha x rfl
    rw [htold, List.append_nil] at hhear
    exact .move a x x hhear

theorem get?_foldl_notify (key : String) (w : FileSource) (ns : List (String × Notice)) :
    (ns.foldl (fun w n => w.notify n.1 n.2) w).watchers.get? key =
      (w.watchers.get? key).map fun x =>
        { x with notices := x.notices ++ (ns.filter (·.1 = key)).map Prod.snd } := by
  induction ns generalizing w with
  | nil => simp
  | cons n ns ih =>
    rw [List.foldl_cons, ih, notify, Dict.get?_modify]
    by_cases hn : n.1 = key
    . cases w.watchers.get? key <;> simp [hn]
    . have hkey : key ≠ n.1 := fun h => hn h.symm
      simp [hn, hkey]

theorem change_effect (key : String) (w : FileSource) (c : DiskChange) :
    w.WatcherEffect key (.change c) (w.watchers.get? key)
      ((w.step (.change c)).1.watchers.get? key) := by
  simp only [step, change, get?_foldl_notify]
  cases hx : w.watchers.get? key with
  | none => exact .absent _
  | some x =>
    have htold := w.watchers.filter_flatMap_entries
      (fun x => ((w.disk.change c).2.filter (·.directory = x.entry.directory)).map (noticeFor x)) hx
    simp only [List.map_map, Function.comp_def] at htold
    rw [htold]
    exact .move _ x _ (.hear _ (by simp))

theorem notify_effect (key : String) (w : FileSource) (k : String) (n : Notice) :
    w.WatcherEffect key (.notify k n) (w.watchers.get? key)
      ((w.step (.notify k n)).1.watchers.get? key) := by
  simp only [step, notify, Dict.get?_modify]
  split
  . next hk =>
    cases hx : w.watchers.get? key with
    | none => exact .absent _
    | some x =>
      have hidle : FileAction.notify k n = .handle key → x.pending = none := by simp
      have hhear := Watcher.Move.hear (w := w) (.notify k n) hidle
      rw [told, if_pos hk.symm] at hhear
      exact .move _ x _ hhear
  . next hk => exact effect_of_still _ (fun _ => if_neg fun h => hk h.symm) (by simp)

theorem watchers_read (w : FileSource) (i : Nat) : (w.read i).watchers = w.watchers := by
  unfold read
  split
  . split <;> rfl
  . split <;> rfl
  . rfl

theorem finish_effect (key : String) (w : FileSource) (i : Nat)
    (registration : Disk.Registration) :
    w.WatcherEffect key (.finish i registration) (w.watchers.get? key)
      ((w.step (.finish i registration)).1.watchers.get? key) := by
  have hstill : ∀ o, w.WatcherEffect key (.finish i registration) o o :=
    fun o => effect_of_still o (fun _ => rfl) (by simp)
  simp only [step, finish]
  split
  . unfold finishGet
    split
    . exact hstill _
    . split <;> exact hstill _
  . next k path content hcall =>
    unfold finishWatch
    split
    . next x hx =>
      simp only [join, Dict.get?_insert]
      split
      . next hk =>
        subst hk
        rw [hx]
        exact .move _ x _ (.join i path content _ hcall)
      . exact hstill _
    . next entry hnone =>
      simp only [join, Dict.get?_insert]
      split
      . next hk =>
        subst hk
        rw [hnone]
        exact .make i path content entry hcall
      . exact hstill _
    . exact hstill _
  . exact hstill _
  . exact hstill _

theorem look_effect (key : String) (w : FileSource) (k : String) :
    w.WatcherEffect key (.look k) (w.watchers.get? key)
      ((w.step (.look k)).1.watchers.get? key) := by
  have hstill : ∀ o, w.WatcherEffect key (.look k) o o :=
    fun o => effect_of_still o (fun _ => rfl) (by simp)
  simp only [step, look]
  split
  . next x hx =>
    split
    . next n rest hpending hnotices =>
      rw [Dict.get?_insert]
      split
      . next hk =>
        subst hk
        rw [hx]
        exact .move _ x _ (.look n rest hpending hnotices)
      . exact hstill _
    . exact hstill _
  . exact hstill _

/--
What handling does to the watchers and the channels.
-/
theorem handle_of_pending {k : String} {x : Watcher} (hx : w.watchers.get? k = some x) {n : Notice}
    {reading : Except Fault String} (hpending : x.pending = some (n, reading)) :
    let passed := x.hub.pass k (x.news k n reading).response w.channels
    (w.handle k).1.channels = passed.2 ∧
      (w.handle k).1.watchers = w.watchers.insert k
        { x with state := (x.news k n reading).state, pending := none, hub := passed.1 } := by
  simp only [handle, hx, hpending, Watcher.news, Hub.pass]
  cases (x.state.handle k x.path x.entry.name n reading).response with
  | none => exact ⟨rfl, rfl⟩
  | some r => exact ⟨rfl, rfl⟩

theorem handle_effect (key : String) (w : FileSource) (k : String) :
    w.WatcherEffect key (.handle k) (w.watchers.get? key)
      ((w.step (.handle k)).1.watchers.get? key) := by
  cases hx : w.watchers.get? k with
  | none =>
    have hsame : (w.handle k).1 = w := by simp only [handle, hx]
    rw [step, hsame]
    refine effect_of_still _ (fun _ => rfl) ?_
    intro hk y hy
    rw [← (FileAction.handle.inj hk), hx] at hy
    cases hy
  | some x =>
    cases hpending : x.pending with
    | none =>
      have hsame : (w.handle k).1 = w := by simp only [handle, hx, hpending]
      rw [step, hsame]
      refine effect_of_still _ (fun _ => rfl) ?_
      intro hk y hy
      rw [← (FileAction.handle.inj hk), hx] at hy
      rw [← Option.some.inj hy, hpending]
    | some taken =>
      rw [step, (handle_of_pending hx hpending).2, Dict.get?_insert]
      split
      . next hk =>
        subst hk
        rw [hx]
        exact .move _ x _ (.handle _ _ hpending)
      . next hk =>
        refine effect_of_still _ (fun _ => rfl) ?_
        intro hkey
        exact absurd (FileAction.handle.inj hkey).symm hk

theorem watcher_effect (key : String) (w : FileSource) (a : FileAction) :
    w.WatcherEffect key a (w.watchers.get? key) ((w.step a).1.watchers.get? key) := by
  cases a with
  | change c => exact w.change_effect key c
  | notify k n => exact w.notify_effect key k n
  | get k | watch k =>
    simp only [step, begin]
    split <;> exact effect_of_still _ (fun _ => rfl) (by simp)
  | read i =>
    rw [step, watchers_read]
    exact effect_of_still _ (fun _ => rfl) (by simp)
  | finish i registration => exact w.finish_effect key i registration
  | look k => exact w.look_effect key k
  | handle k => exact w.handle_effect key k
  | receive i | dropReceiver i => exact effect_of_still _ (fun _ => rfl) (by simp)
  | drop =>
    simp only [step, drop]
    split
    . next hidle => exact .drop _ hidle
    . exact effect_of_still _ (fun _ => rfl) (by simp)

theorem run_fst (w : FileSource) (as : List FileAction) :
    (w.run as).1 = as.foldl (fun (w : FileSource) a => (w.step a).1) w :=
  (List.foldl_hom Prod.fst fun _ _ => rfl).symm

theorem foldl_notify (w : FileSource) (ns : List (String × Notice)) :
    ∃ watchers, ns.foldl (fun w n => w.notify n.1 n.2) w = { w with watchers } := by
  induction ns generalizing w with
  | nil => exact ⟨w.watchers, rfl⟩
  | cons n ns ih => exact ih (w.notify n.1 n.2)

theorem change_frame (w : FileSource) (c : DiskChange) :
    ∃ watchers, w.change c = { w with disk := (w.disk.change c).1, watchers } :=
  foldl_notify { w with disk := (w.disk.change c).1 } _

theorem finish_frame (w : FileSource) (i : Nat) (registration : Disk.Registration) :
    let last := (w.finish i registration).1
    last.disk = w.disk ∧ last.items = w.items ∧ last.isAlive = w.isAlive := by
  unfold finish
  split
  . unfold finishGet
    split
    . exact ⟨rfl, rfl, rfl⟩
    . split <;> exact ⟨rfl, rfl, rfl⟩
  . unfold finishWatch
    split <;> exact ⟨rfl, rfl, rfl⟩
  . exact ⟨rfl, rfl, rfl⟩
  . exact ⟨rfl, rfl, rfl⟩

/--
Whether a call to watch the file of a key is accepted when the file is there: the key is watched
already, or one can be told of what happens to the file.
-/
def accepts (w : FileSource) (key : String) (registration : Disk.Registration) : Bool :=
  (w.watchers.get? key).isSome || registration.isOk

theorem finish_of_accepts {i : Nat} {path content : String} {registration : Disk.Registration}
    (hcall : w.calls[i]? = some (.watchRead key path (.ok content)))
    (haccepts : w.accepts key registration = true) :
    ∃ x cache, (w.finish i registration).1 = { w.join i key x with cache } ∧
      x.hub.members = ((w.watchers.get? key).map (·.hub.members)).getD [] := by
  simp only [finish, hcall, finishWatch]
  cases hx : w.watchers.get? key with
  | some x => exact ⟨x, w.cache, rfl, rfl⟩
  | none =>
    cases registration with
    | ok entry => exact ⟨.start path entry content, _, rfl, rfl⟩
    | error cause => simp [accepts, hx, Except.isOk, Except.toBool] at haccepts

theorem finish_of_not_accepts {i : Nat} {path content : String} {registration : Disk.Registration}
    (hcall : w.calls[i]? = some (.watchRead key path (.ok content)))
    (haccepts : w.accepts key registration = false) :
    ∃ cause, registration = .error cause ∧ w.watchers.get? key = none ∧
      w.finish i registration = (w.setCall i (.watching (.error (.notify path cause))), []) := by
  rw [accepts, Bool.or_eq_false_iff] at haccepts
  have hnone : w.watchers.get? key = none := by simpa using haccepts.1
  cases registration with
  | ok entry => cases haccepts.2
  | error cause => exact ⟨cause, rfl, hnone, by simp only [finish, hcall, finishWatch, hnone]⟩

theorem isAlive_step (halive : (w.step a).1.isAlive = true) :
    w.isAlive = true ∧ (a = .drop → w.isIdle = false) := by
  cases a with
  | change c =>
    obtain ⟨watchers, hchange⟩ := w.change_frame c
    rw [step, hchange] at halive
    exact ⟨halive, by simp⟩
  | finish i registration => exact ⟨(w.finish_frame i registration).2.2 ▸ halive, by simp⟩
  | get | watch | read | look | handle =>
    refine ⟨?_, by simp⟩
    grind [step, begin, read, setCall, look, handle]
  | drop =>
    simp only [step, drop] at halive
    split at halive
    . cases halive
    . next hidle => exact ⟨halive, fun _ => Bool.eq_false_iff.2 hidle⟩
  | notify | receive | dropReceiver => exact ⟨halive, by simp⟩

theorem items_step (w : FileSource) (a : FileAction) : (w.step a).1.items = w.items := by
  cases a with
  | change c =>
    obtain ⟨watchers, hchange⟩ := w.change_frame c
    rw [step, hchange]
  | finish i registration => exact (w.finish_frame i registration).2.1
  | get | watch | read | look | handle | drop =>
    grind [step, begin, read, setCall, look, handle, drop]
  | notify | receive | dropReceiver => rfl

/--
What an action does to the calls: one begins, or one that is not over comes further. What a call is
for does not change.
-/
theorem calls_step (w : FileSource) (a : FileAction) :
    (w.step a).1.calls = w.calls ∨
    (∃ c, (w.step a).1.calls = w.calls ++ [c] ∧ ∀ key path r, c ≠ .watchRead key path r) ∨
    ∃ (i : Nat) (c c' : FileCall), w.calls[i]? = some c ∧ c.isOver = false ∧
      (w.step a).1.calls = w.calls.set i c' ∧
      (∀ key path r, c' = .watchRead key path r → w.items.get? key = some path) ∧
      c'.isWatch = c.isWatch := by
  have hset : ∀ (i : Nat) (c c' : FileCall), w.calls[i]? = some c → c.isOver = false →
      (∀ key path r, c' ≠ .watchRead key path r) → c'.isWatch = c.isWatch →
      ∃ (j : Nat) (d d' : FileCall), w.calls[j]? = some d ∧ d.isOver = false ∧
        w.calls.set i c' = w.calls.set j d' ∧
        (∀ key path r, d' = .watchRead key path r → w.items.get? key = some path) ∧
        d'.isWatch = d.isWatch := by
    intro i c c' hc hover hread hkind
    exact ⟨i, c, c', hc, hover, rfl, fun key path r heq => absurd heq (hread key path r), hkind⟩
  cases a with
  | change c =>
    obtain ⟨watchers, hchange⟩ := w.change_frame c
    left
    rw [step, hchange]
  | get k | watch k =>
    simp only [step, begin]
    split
    . exact .inr (.inl ⟨_, rfl, by simp⟩)
    . exact .inl rfl
  | read i =>
    simp only [step, read]
    split
    . next k hcall => split <;> exact .inr (.inr (hset i _ _ hcall rfl (by simp) rfl))
    . next k hcall =>
      split
      . next p hp =>
        refine .inr (.inr ⟨i, _, _, hcall, rfl, rfl, ?_, rfl⟩)
        intro key path r heq
        cases heq
        simp only [FileSource.path] at hp
        split at hp
        . next hitem => rw [hitem, Except.ok.inj hp]
        . cases hp
      . exact .inr (.inr (hset i _ _ hcall rfl (by simp) rfl))
    . exact .inl rfl
  | finish i registration =>
    simp only [step, finish]
    split
    . next key path reading hcall =>
      simp only [finishGet]
      split
      . exact .inr (.inr (hset i _ _ hcall rfl (by simp) rfl))
      . split <;> exact .inr (.inr (hset i _ _ hcall rfl (by simp) rfl))
    . next hcall =>
      simp only [finishWatch]
      split <;> exact .inr (.inr (hset i _ _ hcall rfl (by simp) rfl))
    . next hcall => exact .inr (.inr (hset i _ _ hcall rfl (by simp) rfl))
    . exact .inl rfl
  | look | handle | drop =>
    left
    grind [step, look, handle, drop]
  | notify | receive | dropReceiver => exact .inl rfl

theorem watchRead_of_step {i : Nat} {path : String} {r : Except ConfigError String}
    (hi : (w.step a).1.calls[i]? = some (.watchRead key path r)) :
    w.calls[i]? = some (.watchRead key path r) ∨ w.items.get? key = some path := by
  rcases w.calls_step a with hsame | ⟨c, hbegun, hread⟩ | ⟨j, c, c', -, -, hset, hread, -⟩
  . exact .inl (hsame ▸ hi)
  . rw [hbegun] at hi
    rcases origin_of_concat hi with ⟨-, heq⟩ | ⟨-, hold⟩
    . exact absurd heq.symm (hread key path r)
    . exact .inl hold
  . rw [hset] at hi
    rcases origin_of_set hi with ⟨-, heq⟩ | ⟨-, hold⟩
    . exact .inr (hread key path r heq.symm)
    . exact .inl hold

theorem isWatch_step {i : Nat} {c : FileCall} (hi : w.calls[i]? = some c) (a : FileAction) :
    ∃ c', (w.step a).1.calls[i]? = some c' ∧ c'.isWatch = c.isWatch := by
  have hlt := (List.getElem?_eq_some_iff.1 hi).1
  rcases w.calls_step a with hsame | ⟨d, hbegun, -⟩ | ⟨j, d, d', hj, -, hset, -, hkind⟩
  . exact ⟨c, hsame ▸ hi, rfl⟩
  . exact ⟨c, by rw [hbegun, List.getElem?_append_left hlt, hi], rfl⟩
  . rw [hset, getElem?_set_of_getElem? hj]
    split
    . next hij =>
      rw [hij, hj, Option.some.injEq] at hi
      exact ⟨d', rfl, hi ▸ hkind⟩
    . exact ⟨c, hi, rfl⟩

/--
A call that is over stays as it is.
-/
theorem over_step {i : Nat} {c : FileCall} (hi : w.calls[i]? = some c) (hover : c.isOver = true) :
    (w.step a).1.calls[i]? = some c := by
  have hlt := (List.getElem?_eq_some_iff.1 hi).1
  rcases w.calls_step a with hsame | ⟨d, hbegun, -⟩ | ⟨j, d, d', hj, hnot, hset, -, -⟩
  . rw [hsame, hi]
  . rw [hbegun, List.getElem?_append_left hlt, hi]
  . have hne : j ≠ i := by
      rintro rfl
      rw [hi, Option.some.injEq] at hj
      rw [hj, hnot] at hover
      cases hover
    rw [hset, List.getElem?_set_ne hne, hi]

/--
The paths of a source are those of its items.
-/
structure Mapped (w : FileSource) : Prop where
  calls : ∀ (i : Nat) key path r, w.calls[i]? = some (.watchRead key path r) →
    w.items.get? key = some path
  watchers : ∀ key x, w.watchers.get? key = some x → w.items.get? key = some x.path

theorem Mapped.step (hw : w.Mapped) (a : FileAction) : (w.step a).1.Mapped := by
  refine ⟨?_, ?_⟩
  . intro i key path r hi
    rw [items_step]
    exact (watchRead_of_step hi).elim (hw.calls i key path r) id
  . intro key x' hx'
    have heffect := w.watcher_effect key a
    rw [items_step]
    rw [hx'] at heffect
    cases hx : w.watchers.get? key with
    | some x =>
      rw [hx] at heffect
      cases heffect with
      | move _ _ _ hmove => rw [hmove.path, hw.watchers key x hx]
    | none =>
      rw [hx] at heffect
      cases heffect with
      | make i path content entry hcall => exact hw.calls i key path _ hcall

end FileSource

end Upkeep.Config
