import Mathlib.Control.Monad.Basic
import Upkeep.Proofs.Config.Watcher

/-!
This module contains the proof that the watcher of a file knows it once all notices are handled. A
notice is handled later than the change that it tells of, so that the file is read when it may be
another already, and a removal is believed without a look. What carries the proof is that a removal
is the last news in the queue only while the file is not there, and that a watcher without news in
its queue has read the file, or is about to know it, as it is now.
-/

namespace Upkeep.Config

/--
What a notice says of the file with a name, if it says something that a watcher acts upon.
-/
def Notice.about? (name : String) : Notice → Option NoticeKind
  | .failure _ => none
  | .change names kind => if names.contains name && kind != .other then some kind else none

namespace FileState

variable {key path name : String} {n : Notice} {reading : Except Fault String}

/--
Whether a file that reads as given has a state. Of a file that is there but cannot be read nothing is
known.
-/
def Agrees (s : FileState) : Except Fault String → Prop
  | .ok c => s = .present c
  | .error .notFound => s = .missing
  | .error _ => True

instance (s : FileState) : (reading : Except Fault String) → Decidable (s.Agrees reading)
  | .ok c => inferInstanceAs (Decidable (s = .present c))
  | .error .notFound => inferInstanceAs (Decidable (s = .missing))
  | .error (.other _) | .error .isDirectory | .error .notDirectory | .error .notText
  | .error .invalidPath | .error .invalidName => inferInstanceAs (Decidable True)

theorem state_remove (s : FileState) : (s.remove key path).state = .missing := by
  unfold remove
  split
  . assumption
  . rfl

theorem state_write (s : FileState) (c : String) : (s.write key path c).state = .present c := by
  unfold write
  split
  . assumption
  . rfl

theorem handle_of_silent (key path : String) (s : FileState) (reading : Except Fault String)
    (hn : n.about? name = none) :
    ∃ events, s.handle key path name n reading = s.unchanged events := by
  cases n with
  | failure => exact ⟨_, rfl⟩
  | change names kind =>
    rw [handle]
    split
    . next hname =>
      have hkind : kind = .other := by
        simpa only [Notice.about?, hname, Bool.true_and, bne_iff_ne, ne_eq, ite_eq_right_iff,
          reduceCtorEq, imp_false, not_not] using hn
      rw [hkind]
      exact ⟨_, rfl⟩
    . exact ⟨_, rfl⟩

theorem state_handle_of_silent (s : FileState) (hn : n.about? name = none) :
    (s.handle key path name n reading).state = s := by
  obtain ⟨events, hsame⟩ := s.handle_of_silent key path reading hn
  rw [hsame]
  rfl

theorem handle_of_about (s : FileState) {kind : NoticeKind} (hn : n.about? name = some kind) :
    s.handle key path name n reading = s.update key path kind reading ∧ kind ≠ .other := by
  cases n with
  | failure => simp [Notice.about?] at hn
  | change names kind' =>
    rw [Notice.about?] at hn
    split at hn
    . next hboth =>
      rw [Bool.and_eq_true, bne_iff_ne] at hboth
      rw [Option.some.injEq] at hn
      subst hn
      exact ⟨by rw [handle, if_pos hboth.1], hboth.2⟩
    . simp at hn

/--
Handling a notice about the file together with what the file reads as leaves the state of the file,
if the file is not there in the case of a removal.
-/
theorem agrees_handle (s : FileState) {kind : NoticeKind} (hn : n.about? name = some kind)
    (hremoved : kind = .removed → reading = .error .notFound) :
    (s.handle key path name n reading).state.Agrees reading := by
  obtain ⟨hupdate, hkind⟩ := s.handle_of_about hn
  rw [hupdate]
  cases kind with
  | removed =>
    rw [hremoved rfl]
    exact s.state_remove
  | other => exact absurd rfl hkind
  | written =>
    unfold update
    dsimp only
    split
    . exact s.state_write _
    . exact s.state_remove
    . next e hne =>
      cases e with
      | notFound => exact absurd rfl hne
      | _ => trivial

end FileState

/--
What the notices that a watcher has not taken yet say of its file.
-/
def Watcher.queued (x : Watcher) : List NoticeKind :=
  x.notices.filterMap (Notice.about? x.entry.name)

/--
The state that a watcher has once it has handled the notice that it has taken.
-/
def Watcher.upcoming (key : String) (x : Watcher) : FileState :=
  match x.pending with
  | some (n, reading) => (x.news key n reading).state
  | none => x.state

namespace Watcher

variable {key : String} {reading reading' : Except Fault String} {x x' : Watcher} {known : Prop}

/--
A watcher is abreast of its file. If a removal is the last news in its queue, the file is not there.
If there is no news in the queue, the state is going to be that of the file, as far as the watcher
ever got to know it.
-/
structure Abreast (key : String) (x : Watcher) (reading : Except Fault String) (known : Prop) :
    Prop where
  removed : x.queued.getLast? = some .removed → reading = .error .notFound
  upcoming : x.queued = [] → known → (x.upcoming key).Agrees reading

theorem Abreast.of_imp {known' : Prop} (hx : x.Abreast key reading known) (h : known' → known) :
    x.Abreast key reading known' :=
  ⟨hx.removed, fun hnil hknown => hx.upcoming hnil (h hknown)⟩

theorem Abreast.hear (hx : x.Abreast key reading known) (told : List Notice)
    (hquiet : told.filterMap (Notice.about? x.entry.name) = [] → reading' = reading)
    (hremoved : (told.filterMap (Notice.about? x.entry.name)).getLast? = some .removed →
      reading' = .error .notFound) :
    Abreast key { x with notices := x.notices ++ told } reading'
      (known ∨ told.filterMap (Notice.about? x.entry.name) ≠ []) := by
  constructor
  . intro hlast
    rw [queued, List.filterMap_append, List.getLast?_append] at hlast
    cases hnews : (told.filterMap (Notice.about? x.entry.name)).getLast? with
    | none =>
      rw [hnews, Option.none_or] at hlast
      rw [hquiet (List.getLast?_eq_none_iff.1 hnews)]
      exact hx.removed hlast
    | some kind =>
      rw [hnews, Option.some_or] at hlast
      exact hremoved (hnews.trans hlast)
  . intro hnil hknown
    rw [queued, List.filterMap_append, List.append_eq_nil_iff] at hnil
    rw [hquiet hnil.2]
    exact hx.upcoming hnil.1 (hknown.resolve_right fun hnews => hnews hnil.2)

theorem Abreast.look (hx : x.Abreast key reading known) (n : Notice) (rest : List Notice)
    (hpending : x.pending = none) (hnotices : x.notices = n :: rest) :
    Abreast key { x with notices := rest, pending := some (n, reading) } reading known := by
  cases hn : n.about? x.entry.name with
  | none =>
    have hqueued : x.queued = rest.filterMap (Notice.about? x.entry.name) := by
      rw [queued, hnotices, List.filterMap_cons_none hn]
    have hupcoming : x.upcoming key = x.state := by rw [Watcher.upcoming, hpending]
    refine ⟨?_, ?_⟩
    . intro hlast
      exact hx.removed (hqueued ▸ hlast)
    . intro hnil hknown
      rw [Watcher.upcoming]
      dsimp only [news]
      rw [FileState.state_handle_of_silent _ hn, ← hupcoming]
      exact hx.upcoming (hqueued ▸ hnil) hknown
  | some kind =>
    have hqueued : x.queued = kind :: rest.filterMap (Notice.about? x.entry.name) := by
      rw [queued, hnotices, List.filterMap_cons_some hn]
    refine ⟨?_, ?_⟩
    . intro hlast
      apply hx.removed
      rw [queued] at hlast
      rw [hqueued, List.getLast?_cons, hlast]
      rfl
    . intro hnil _
      -- this was the last news, so that the file is read as all that was told has left it
      rw [Watcher.upcoming]
      apply FileState.agrees_handle _ hn
      rintro rfl
      apply hx.removed
      rw [queued] at hnil
      rw [hqueued, hnil]
      rfl

theorem Abreast.handle (hx : x.Abreast key reading known) (n : Notice) (r : Except Fault String)
    (hub : Hub) (hpending : x.pending = some (n, r)) :
    Abreast key { x with state := (x.news key n r).state, pending := none, hub } reading known := by
  have hupcoming : x.upcoming key = (x.news key n r).state := by rw [Watcher.upcoming, hpending]
  refine ⟨hx.removed, ?_⟩
  intro hnil hknown
  have hagrees := hx.upcoming hnil hknown
  rwa [hupcoming] at hagrees

end Watcher

/--
What an action tells a watcher of a key about its file.
-/
def FileSource.heard (key : String) (w : FileSource) (x : Watcher) (a : FileAction) :
    List NoticeKind :=
  (w.told key x a).filterMap (Notice.about? x.entry.name)

theorem Watcher.Abreast.move {key : String} {w : FileSource} {x x' : Watcher} {a : FileAction}
    {reading : Except Fault String} {known : Prop}
    (hx : x.Abreast key (w.disk.read x.path) known) (hmove : x.Move key w a x')
    (hquiet : w.heard key x a = [] → reading = w.disk.read x.path)
    (hremoved : (w.heard key x a).getLast? = some .removed → reading = .error .notFound) :
    x'.Abreast key reading (known ∨ w.heard key x a ≠ []) := by
  cases hmove with
  | hear a hidle => exact hx.hear _ hquiet hremoved
  | join i path content hcall =>
    rw [hquiet rfl]
    exact ⟨hx.removed, fun hnil hknown => hx.upcoming hnil (hknown.resolve_right (absurd rfl))⟩
  | look n rest hpending hnotices =>
    rw [hquiet rfl]
    exact (hx.look n rest hpending hnotices).of_imp fun hknown => hknown.resolve_right (absurd rfl)
  | handle n r hpending =>
    rw [hquiet rfl]
    exact (hx.handle n r _ hpending).of_imp fun hknown => hknown.resolve_right (absurd rfl)

namespace FileSource

variable {key : String} {w : FileSource} {a : FileAction} {h : List Bool}

/--
Whether the watcher of a key is told of what an action does to its file: of something if the file
reads otherwise after it, and of a removal last only if the file is not there then.
-/
def Announces (key : String) (w : FileSource) (a : FileAction) : Prop :=
  ∀ x, w.watchers.get? key = some x →
    (w.heard key x a = [] → (w.step a).1.disk.read x.path = w.disk.read x.path) ∧
    ((w.heard key x a).getLast? = some .removed →
      (w.step a).1.disk.read x.path = .error .notFound)

instance (key : String) (w : FileSource) (a : FileAction) : Decidable (w.Announces key a) :=
  inferInstanceAs (Decidable (∀ x ∈ w.watchers.get? key, _))

def Announced (key : String) (w : FileSource) (as : List FileAction) : Prop :=
  Run.Obeys (fun (w : FileSource) a => (w.step a).1) (Announces key) w as

instance (key : String) (w : FileSource) (as : List FileAction) : Decidable (w.Announced key as) :=
  inferInstanceAs (Decidable (Run.Obeys ..))

/--
Whether the watcher of a key gets to know its file by an action: it is told something about it, or it
is made while the file reads as the text that it is made with.
-/
def sightings (key : String) (w : FileSource) (a : FileAction) : List Bool :=
  match w.watchers.get? key, (w.step a).1.watchers.get? key with
  | some x, _ => if w.heard key x a = [] then [] else [true]
  | none, some x => [decide (x.state.Agrees (w.disk.read x.path))]
  | none, none => []

def sighted (key : String) (w : FileSource) (as : List FileAction) : List Bool :=
  Run.history (fun (w : FileSource) a => (w.step a).1) (sightings key) w as

/--
The watcher of a key is abreast of its file, which it knows if it got to know it last.
-/
def Follows (key : String) (w : FileSource) (h : List Bool) : Prop :=
  ∀ x, w.watchers.get? key = some x →
    x.Abreast key (w.disk.read x.path) (h.getLast? = some true)

theorem sightings_of_watcher {x : Watcher} (hx : w.watchers.get? key = some x) (a : FileAction) :
    w.sightings key a = if w.heard key x a = [] then [] else [true] := by
  simp only [sightings, hx]

theorem sightings_of_make {x : Watcher} (hnone : w.watchers.get? key = none)
    (hx : (w.step a).1.watchers.get? key = some x) :
    w.sightings key a = [decide (x.state.Agrees (w.disk.read x.path))] := by
  simp only [sightings, hnone, hx]

theorem Follows.step (hw : w.Follows key h) (ha : w.Announces key a) :
    (w.step a).1.Follows key (h ++ w.sightings key a) := by
  intro x' hx'
  have heffect := w.watcher_effect key a
  rw [hx'] at heffect
  cases hx : w.watchers.get? key with
  | some x =>
    rw [hx] at heffect
    cases heffect with
    | move _ _ _ hmove =>
      have habreast := (hw x hx).move hmove (ha x hx).1 (ha x hx).2
      rw [hmove.path, sightings_of_watcher hx]
      apply habreast.of_imp
      split
      . next hnil =>
        rw [List.append_nil]
        exact Or.inl
      . next hnews => exact fun _ => Or.inr hnews
  | none =>
    rw [hx] at heffect
    rw [sightings_of_make hx hx', List.getLast?_concat]
    cases heffect with
    | make i path content entry hcall =>
      rw [FileSource.step, (w.finish_frame i (.ok entry)).1]
      refine ⟨?_, ?_⟩
      . intro hlast
        simp [Watcher.queued] at hlast
      . intro _ hknown
        exact of_decide_eq_true (Option.some.inj hknown)

theorem Follows.run (hw : w.Follows key h) (as : List FileAction) (has : w.Announced key as) :
    (w.run as).1.Follows key (h ++ w.sighted key as) := by
  rw [run_fst]
  exact Run.invariant (fun (w : FileSource) a => (w.step a).1) (sightings key) (Announces key)
    (Follows key) (fun _ _ _ ha hw => hw.step ha) as w h hw has

theorem Follows.of_none (hnone : w.watchers.get? key = none) : w.Follows key h := by
  intro x hx
  rw [hnone] at hx
  cases hx

/--
A key has a watcher, which was only told of changes since.
-/
structure Watches (key path : String) (w : FileSource) (h : List Bool) : Prop where
  watcher : ∃ x, w.watchers.get? key = some x ∧ x.path = path
  told : ∀ m ∈ h, m = true

theorem Watches.step {path : String} (hw : w.Watches key path h)
    (hdrop : a = .drop → w.isIdle = false) :
    (w.step a).1.Watches key path (h ++ w.sightings key a) := by
  obtain ⟨x, hx, hpath⟩ := hw.watcher
  have heffect := w.watcher_effect key a
  rw [hx] at heffect
  refine ⟨?_, ?_⟩
  . generalize (w.step a).1.watchers.get? key = o at heffect ⊢
    cases heffect with
    | move _ _ x' hmove => exact ⟨x', rfl, hmove.path.trans hpath⟩
    | drop _ hidle => exact absurd hidle (by simp [hdrop rfl])
  . intro m hm
    rcases List.mem_append.1 hm with hm | hm
    . exact hw.told m hm
    . rw [sightings_of_watcher hx] at hm
      split at hm
      . cases hm
      . exact List.mem_singleton.1 hm

theorem Watches.run {path : String} (hw : w.Watches key path []) (as : List FileAction)
    (halive : (w.run as).1.isAlive = true) : (w.run as).1.Watches key path (w.sighted key as) := by
  have hrun := Run.invariant_of_step (fun (w : FileSource) a => (w.step a).1) (sightings key)
    (fun w h => w.isAlive = true → w.Watches key path h)
    (fun _ _ _ hw halive => (hw (isAlive_step halive).1).step (isAlive_step halive).2) as w []
    (fun _ => hw)
  rw [run_fst] at halive ⊢
  exact hrun halive

theorem Follows.agrees (hw : w.Follows key h) {x : Watcher} (hx : w.watchers.get? key = some x)
    (hnotices : x.notices = []) (hpending : x.pending = none) (hknown : h.getLast? = some true) :
    x.state.Agrees (w.disk.read x.path) := by
  have hqueued : x.queued = [] := by rw [Watcher.queued, hnotices, List.filterMap_nil]
  have hupcoming : x.upcoming key = x.state := by rw [Watcher.upcoming, hpending]
  rw [← hupcoming]
  exact (hw x hx).upcoming hqueued hknown

theorem get?_finish {i : Nat} {path content : String}
    (hcall : w.calls[i]? = some (.watchRead key path (.ok content)))
    (hnone : w.watchers.get? key = none) (entry : Disk.Entry) :
    (w.step (.finish i (.ok entry))).1.watchers.get? key =
      some
        { path, entry, state := .present content, notices := [], pending := none
          hub := Hub.empty.join w.channels.length } := by
  simp only [step, finish, hcall, finishWatch, join, hnone, Dict.get?_insert_self]
  rfl

/--
A call makes the watcher of a key. From then on files change and notices are handled in any order,
and the watcher is told of all changes of its file. As long as the source is alive it has the watcher,
and whenever that has nothing left to handle and has been told of a change, or was made with the text
that the file had then, the state is that of the file: missing if there is none, and otherwise
present with the text that it has.
-/
theorem idle_watcher_knows_file (w : FileSource) (i : Nat) (key path content : String)
    (hcall : w.calls[i]? = some (.watchRead key path (.ok content)))
    (hnone : w.watchers.get? key = none) (entry : Disk.Entry) (as : List FileAction)
    (has : (w.step (.finish i (.ok entry))).1.Announced key as) :
    let made := (w.step (.finish i (.ok entry))).1
    let last := (made.run as).1
    last.isAlive = true → ∃ x, last.watchers.get? key = some x ∧ x.path = path ∧
      (x.notices = [] → x.pending = none →
        made.sighted key as ≠ [] ∨ w.disk.read path = .ok content →
        (last.disk.read path = .error .notFound → x.state = .missing) ∧
        ∀ c, last.disk.read path = .ok c → x.state = .present c) := by
  intro made last halive
  have hmade : made.watchers.get? key = some _ := get?_finish hcall hnone entry
  have hstart : made.Follows key ([] ++ w.sightings key (.finish i (.ok entry))) := by
    apply (Follows.of_none hnone).step
    intro x hx
    rw [hnone] at hx
    cases hx
  have hfollows := hstart.run as has
  have hwatches : last.Watches key path (made.sighted key as) :=
    Watches.run ⟨⟨_, hmade, rfl⟩, by simp⟩ as halive
  obtain ⟨x, hx, rfl⟩ := hwatches.watcher
  refine ⟨x, hx, rfl, ?_⟩
  intro hnotices hpending hinformed
  have hknown : ([] ++ w.sightings key (.finish i (.ok entry)) ++
      made.sighted key as).getLast? = some true := by
    rw [sightings_of_make hnone hmade, List.getLast?_append]
    cases hlast : (made.sighted key as).getLast? with
    | some m => rw [Option.some_or, hwatches.told m (List.mem_of_getLast? hlast)]
    | none =>
      rw [List.getLast?_eq_none_iff] at hlast
      have hread := hinformed.resolve_left fun hne => hne hlast
      rw [hread, Option.none_or, List.nil_append, List.getLast?_singleton]
      exact congrArg some (decide_eq_true rfl)
  have hagrees := hfollows.agrees hx hnotices hpending hknown
  refine ⟨?_, ?_⟩
  . intro hread
    rw [hread] at hagrees
    exact hagrees
  . intro c hread
    rw [hread] at hagrees
    exact hagrees

deriving instance DecidableEq for FileCall

/--
A source that is about to watch a file.
-/
def aboutToWatch : FileSource :=
  ((FileSource.start .empty [] (.ofList [("flags", "$DIR/flags")])).run
    [.change (.write "$DIR/flags" [49]), .watch "flags", .read 0]).1

def flagsEntry : Disk.Entry := ⟨1, some "$DIR", "flags"⟩

/--
The file is rewritten, deleted and made again, and another file is written. The watcher takes the
first notice when the file is gone already, and handles it when the file is there again.
-/
def rewrittenAndDeleted : List FileAction :=
  [.change (.write "$DIR/flags" [50]), .change (.delete "$DIR/flags"), .look "flags",
   .change (.write "$DIR/other" [51]), .change (.write "$DIR/flags" [52]), .handle "flags",
   .notify "flags" (.failure "overflow"), .look "flags", .handle "flags", .look "flags",
   .handle "flags", .look "flags", .handle "flags", .look "flags", .handle "flags"]

theorem rewrittenAndDeleted_known :
    let last := ((aboutToWatch.step (.finish 0 (.ok flagsEntry))).1.run rewrittenAndDeleted).1
    aboutToWatch.disk.register "$DIR/flags" = .ok flagsEntry ∧
    ∃ x, last.watchers.get? "flags" = some x ∧ x.notices = [] ∧ x.pending = none ∧
      last.disk.read "$DIR/flags" = .ok "4" ∧ x.state = .present "4" := by
  intro last
  have hregistered : aboutToWatch.disk.register "$DIR/flags" = .ok flagsEntry := by decide +kernel
  obtain ⟨x, hx, -, hknows⟩ := idle_watcher_knows_file aboutToWatch 0 "flags" "$DIR/flags" "1"
    (by decide +kernel) (by decide +kernel) flagsEntry rewrittenAndDeleted (by decide +kernel)
    (by decide +kernel)
  have hidle : (last.watchers.get? "flags").map (fun x => (x.notices, x.pending)) =
      some ([], none) := by decide +kernel
  have hread : last.disk.read "$DIR/flags" = .ok "4" := by decide +kernel
  rw [hx, Option.map_some, Option.some.injEq, Prod.mk.injEq] at hidle
  obtain ⟨hnotices, hpending⟩ := hidle
  refine ⟨hregistered, x, hx, hnotices, hpending, hread, ?_⟩
  exact (hknows hnotices hpending (.inl (by decide +kernel))).2 "4" hread

end FileSource

end Upkeep.Config
