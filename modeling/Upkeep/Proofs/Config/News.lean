import Mathlib.Data.List.Induction
import Upkeep.Proofs.Config.Abreast
import Upkeep.Proofs.Config.Supply

/-!
This module contains the proof that the news of a watcher are exactly the changes of its state: who
knows what the file was at first and takes all news into account knows what the watcher knows, and
none of the news could be left out.
-/

namespace Upkeep.Config

namespace FileState

/--
The state of a file that was in a state, for one who gets a response.
-/
def after (s : FileState) (r : Response) : FileState :=
  match r.kind with
  | .put => .present r.value
  | .del => .missing
  | .null => s

/--
The state for one who gets a series of responses.
-/
def replay (s : FileState) (rs : List Response) : FileState := rs.foldl after s

theorem after_response (s t : FileState) : s.after t.response = t := by
  cases t <;> rfl

theorem kind_response_eq_put {t : FileState} (h : t.response.kind = .put) :
    t = .present t.response.value := by
  cases t with
  | present c => rfl
  | missing => cases h

theorem response_of_kind_ne_put {t : FileState} (h : t.response.kind ≠ .put) : t = .missing := by
  cases t with
  | present c => exact absurd rfl h
  | missing => rfl

/--
Whether each response tells of another state than the responses before it.
-/
def Changes (s : FileState) (rs : List Response) : Prop :=
  ∀ pre r post, rs = pre ++ r :: post → ∃ t : FileState, r = t.response ∧ s.replay pre ≠ t

theorem Changes.concat {s t : FileState} {rs : List Response} (h : s.Changes rs)
    (ht : s.replay rs ≠ t) : s.Changes (rs ++ [t.response]) := by
  intro pre r post heq
  obtain ⟨rfl, rfl, -⟩ | ⟨post', -, hbefore⟩ := split_of_concat heq
  . exact ⟨t, rfl, ht⟩
  . exact h pre r post' hbefore

theorem Changes.of_mem {s : FileState} {rs : List Response} (h : s.Changes rs) {r : Response}
    (hr : r ∈ rs) : ∃ t : FileState, r = t.response := by
  obtain ⟨pre, post, heq⟩ := List.append_of_mem hr
  obtain ⟨t, ht, -⟩ := h pre r post heq
  exact ⟨t, ht⟩

end FileState

/--
News of a file that was there with a content at first, each of which is a change. Nothing is put
that is there already, what is put first is not the content from the beginning, unless the file was
deleted before, and between two deletions something is put. A deletion has no content.
-/
structure ChangeLog (initial : String) (rs : List Response) : Prop where
  kinds : ∀ r ∈ rs, r.kind = .put ∨ r.kind = .del
  empty : ∀ r ∈ rs, r.kind = .del → r.value = ""
  put : ∀ pre r post, rs = pre ++ r :: post → r.kind = .put →
    (FileState.present initial).replay pre ≠ .present r.value
  first : ∀ pre r post, rs = pre ++ r :: post → r.kind = .put → (∀ q ∈ pre, q.kind ≠ .put) →
    (∀ q ∈ pre, q.kind ≠ .del) → r.value ≠ initial
  between : ∀ pre d mid d' post, rs = pre ++ d :: (mid ++ d' :: post) → d.kind = .del →
    d'.kind = .del → ∃ r ∈ mid, r.kind = .put

theorem ChangeLog.of_changes {initial : String} {rs : List Response}
    (h : (FileState.present initial).Changes rs) : ChangeLog initial rs := by
  have hkinds : ∀ r ∈ rs, r.kind = .put ∨ r.kind = .del := by
    intro r hr
    obtain ⟨t, rfl⟩ := h.of_mem hr
    cases t with
    | present c => exact .inl rfl
    | missing => exact .inr rfl
  have hput : ∀ pre r post, rs = pre ++ r :: post → r.kind = .put →
      (FileState.present initial).replay pre ≠ .present r.value := by
    intro pre r post heq hr
    obtain ⟨t, rfl, hne⟩ := h pre r post heq
    exact FileState.kind_response_eq_put hr ▸ hne
  refine ⟨hkinds, ?_, hput, ?_, ?_⟩
  . intro r hr hdel
    obtain ⟨t, rfl⟩ := h.of_mem hr
    cases t with
    | present c => cases hdel
    | missing => rfl
  . intro pre r post heq hr hnoPut hnoDel hvalue
    -- with neither of the two kinds before it, nothing is before it
    have hnil : pre = [] := by
      apply List.eq_nil_iff_forall_not_mem.2
      intro q hq
      have hmem : q ∈ rs := by
        rw [heq]
        exact List.mem_append_left _ hq
      exact (hkinds q hmem).elim (hnoPut q hq) (hnoDel q hq)
    apply hput pre r post heq hr
    rw [hnil, hvalue]
    rfl
  . intro pre d mid d' post heq hd hd'
    apply Classical.byContradiction
    intro hnone
    -- otherwise the file is still missing when it is deleted again
    have hmissing : ∀ q ∈ mid, q = FileState.missing.response := by
      intro q hq
      have hmem : q ∈ rs := by
        rw [heq]
        simp [hq]
      obtain ⟨t, rfl⟩ := h.of_mem hmem
      rw [FileState.response_of_kind_ne_put fun hkind => hnone ⟨_, hq, hkind⟩]
    have hstill : FileState.missing.replay mid = .missing := by
      clear heq hnone
      induction mid with
      | nil => rfl
      | cons q mid ih =>
        rw [FileState.replay, List.foldl_cons, hmissing q (List.mem_cons_self ..),
          FileState.after_response]
        exact ih fun q hq => hmissing q (List.mem_cons_of_mem _ hq)
    have hsplit : rs = (pre ++ d :: mid) ++ d' :: post := by
      rw [heq, List.append_assoc, List.cons_append]
    obtain ⟨t, rfl, hne⟩ := h _ _ _ hsplit
    have ht := FileState.response_of_kind_ne_put (t := t) (by simp [hd'])
    apply hne
    rw [ht, FileState.replay, List.foldl_append, List.foldl_cons, FileState.after, hd]
    exact hstill

namespace FileState

variable (key path name : String)

/--
The state that a watcher has after a series of notices, each with what the file read as, and the
news that it had.
-/
def observe (s : FileState) (i : Notice × Except Fault String) : FileState :=
  (s.handle key path name i.1 i.2).state

def observed (s : FileState) (is : List (Notice × Except Fault String)) : FileState :=
  is.foldl (observe key path name) s

def published (s : FileState) (is : List (Notice × Except Fault String)) : List Response :=
  Run.history (observe key path name) (fun s i => (s.handle key path name i.1 i.2).response.toList)
    s is

/--
A watcher knows what its news tell, and all of them are changes.
-/
structure Mirrors (initial s : FileState) (rs : List Response) : Prop where
  replay : initial.replay rs = s
  changes : initial.Changes rs

theorem Mirrors.start (s : FileState) : s.Mirrors s [] :=
  ⟨rfl, fun pre r post heq => by simp at heq⟩

theorem Mirrors.handle {initial s : FileState} {rs : List Response} (h : initial.Mirrors s rs)
    (key path name : String) (n : Notice) (reading : Except Fault String) :
    initial.Mirrors (s.handle key path name n reading).state
      (rs ++ (s.handle key path name n reading).response.toList) := by
  have hshows : Shows s _ := s.shows_handle key path name n reading
  generalize s.handle key path name n reading = news at hshows ⊢
  rw [hshows]
  split
  . next hsame =>
    rw [hsame, Option.toList_none, List.append_nil]
    exact h
  . next hother =>
    have hne : initial.replay rs ≠ news.state := h.replay ▸ Ne.symm hother
    refine ⟨?_, h.changes.concat hne⟩
    rw [Option.toList_some, FileState.replay, List.foldl_append]
    exact after_response _ _

theorem mirrors_observed (s : FileState) (is : List (Notice × Except Fault String)) :
    s.Mirrors (s.observed key path name is) (s.published key path name is) :=
  Run.invariant_of_step (observe key path name) _ s.Mirrors
    (fun _ _ i h => h.handle key path name i.1 i.2) is s [] (.start s)

end FileState

namespace FileSource

variable {key : String} {w : FileSource} {a : FileAction}

/--
The news that the watcher of a key has in a series of actions.
-/
def published (key : String) (w : FileSource) (as : List FileAction) : List Response :=
  Run.history (fun (w : FileSource) a => (w.step a).1) (publishes key) w as

/--
A key has a watcher that knows what its news tell.
-/
def Tracks (key : String) (initial : FileState) (w : FileSource) (rs : List Response) : Prop :=
  ∃ x, w.watchers.get? key = some x ∧ initial.Mirrors x.state rs

theorem Tracks.step {initial : FileState} {rs : List Response} (hw : w.Tracks key initial rs)
    (hdrop : a = .drop → w.isIdle = false) :
    (w.step a).1.Tracks key initial (rs ++ w.publishes key a) := by
  obtain ⟨x, hx, hmirrors⟩ := hw
  have heffect := w.watcher_effect key a
  rw [hx] at heffect
  rw [Tracks]
  generalize (w.step a).1.watchers.get? key = o at heffect ⊢
  cases heffect with
  | drop _ hidle => exact absurd hidle (by simp [hdrop rfl])
  | move _ _ x' hmove =>
    refine ⟨x', rfl, ?_⟩
    cases hmove with
    | hear _ hidle =>
      rw [publishes_of_idle hx hidle, List.append_nil]
      exact hmirrors
    | join | look => simpa only [publishes, List.append_nil] using hmirrors
    | handle n reading hpending =>
      rw [publishes, if_pos rfl, news?_of_pending hx hpending]
      exact hmirrors.handle key x.path x.entry.name n reading

theorem Tracks.run {initial : FileState} (hw : w.Tracks key initial []) (as : List FileAction)
    (halive : (w.run as).1.isAlive = true) :
    (w.run as).1.Tracks key initial (w.published key as) := by
  have hrun := Run.invariant_of_step (fun (w : FileSource) a => (w.step a).1) (publishes key)
    (fun w rs => w.isAlive = true → w.Tracks key initial rs)
    (fun _ _ _ hw halive => (hw (isAlive_step halive).1).step (isAlive_step halive).2) as w []
    (fun _ => hw)
  rw [run_fst] at halive ⊢
  exact hrun halive

/--
Whatever notices there are and whatever the file reads as: who knows the text that a file had when
its watcher was made, and takes the news of the watcher into account, knows what the watcher knows,
and each of the news is a change. This holds of what is handled in a row, and of the watcher of a
source in which anything else happens meanwhile.
-/
theorem news_are_changes :
    (∀ (key path name initial : String) (is : List (Notice × Except Fault String)),
      let s : FileState := .present initial
      s.replay (s.published key path name is) = s.observed key path name is ∧
        ChangeLog initial (s.published key path name is)) ∧
    ∀ (w : FileSource) (i : Nat) (key path initial : String) (entry : Disk.Entry)
      (as : List FileAction),
      w.calls[i]? = some (.watchRead key path (.ok initial)) → w.watchers.get? key = none →
      let made := (w.step (.finish i (.ok entry))).1
      let last := (made.run as).1
      last.isAlive = true → ∃ x, last.watchers.get? key = some x ∧
        (FileState.present initial).replay (made.published key as) = x.state ∧
        ChangeLog initial (made.published key as) := by
  refine ⟨?_, ?_⟩
  . intro key path name initial is s
    have hmirrors := s.mirrors_observed key path name is
    exact ⟨hmirrors.replay, .of_changes hmirrors.changes⟩
  . intro w i key path initial entry as hcall hnone made last halive
    have hmade : made.Tracks key (.present initial) [] :=
      ⟨_, get?_finish hcall hnone entry, .start _⟩
    obtain ⟨x, hx, hmirrors⟩ := hmade.run as halive
    exact ⟨x, hx, hmirrors.replay, .of_changes hmirrors.changes⟩

theorem rewrittenAndDeleted_news :
    let news := (aboutToWatch.step (.finish 0 (.ok flagsEntry))).1.published "flags"
      rewrittenAndDeleted
    let last := ((aboutToWatch.step (.finish 0 (.ok flagsEntry))).1.run rewrittenAndDeleted).1
    news = [⟨"", .del⟩, ⟨"4", .put⟩] ∧
      ∃ x, last.watchers.get? "flags" = some x ∧ x.state = .present "4" := by
  intro news last
  have hnews : news = [⟨"", .del⟩, ⟨"4", .put⟩] := by decide +kernel
  obtain ⟨x, hx, hreplay, -⟩ := news_are_changes.2 aboutToWatch 0 "flags" "$DIR/flags" "1"
    flagsEntry rewrittenAndDeleted (by decide +kernel) (by decide +kernel) (by decide +kernel)
  refine ⟨hnews, x, hx, hreplay.symm.trans ?_⟩
  exact congrArg (FileState.present "1").replay hnews

end FileSource

end Upkeep.Config
