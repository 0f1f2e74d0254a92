import Upkeep.Proofs.Config.Abreast
import Upkeep.Proofs.Config.Supply

/-!
This module contains what a call for a text answers if the file cannot be read: the text that was
put into the cache last. Not all that is read gets there. Only the first of those who watch a file
puts the text that it has read into the cache, and not even that one if it is refused in the end.
The watcher only puts there what is news to it, although the cache may hold another text than the
one that the watcher knows.
-/

namespace Upkeep.Config

/--
Who reads a file: a call for the text, a call to watch the file, which may be the first one, or one
that is refused although it has read the file, or the watcher, to whom the text may be news.
-/
inductive Reader where
  | get
  | watch (isFirst : Bool)
  | refused
  | watcher (isNews : Bool)
  deriving DecidableEq

/--
Whether what was read goes into the cache.
-/
def Reader.keeps : Reader → Bool
  | .get => true
  | .watch isFirst => isFirst
  | .refused => false
  | .watcher isNews => isNews

/--
A text that was read from a file.
-/
structure Reading where
  reader : Reader
  text : String
  deriving DecidableEq

/--
The last text that went into the cache.
-/
def lastKept (rs : List Reading) : Option Reading := rs.reverse.find? (·.reader.keeps)

theorem lastKept_append (rs qs : List Reading) :
    lastKept (rs ++ qs) = (lastKept qs).or (lastKept rs) := by
  rw [lastKept, List.reverse_append, List.find?_append]
  rfl

theorem lastKept_eq_some_iff {rs : List Reading} {r : Reading} :
    lastKept rs = some r ↔ r.reader.keeps = true ∧
      ∃ pre post, rs = pre ++ r :: post ∧ ∀ q ∈ post, q.reader.keeps = false := by
  rw [lastKept, List.find?_eq_some_iff_append]
  apply and_congr_right
  intro _
  constructor
  . rintro ⟨post, pre, heq, hpost⟩
    refine ⟨pre.reverse, post.reverse, ?_, ?_⟩
    . rw [← List.reverse_reverse rs, heq]
      simp
    . intro q hq
      simpa using hpost q (List.mem_reverse.1 hq)
  . rintro ⟨pre, post, rfl, hpost⟩
    refine ⟨post.reverse, pre.reverse, by simp, ?_⟩
    intro q hq
    simpa using hpost q (List.mem_reverse.1 hq)

/--
The text that a watcher has read for the notice that it has taken. It only reads the file if the
notice says that it was written.
-/
def Watcher.reading? (x : Watcher) : Option Reading :=
  match x.pending with
  | some (n, .ok c) =>
    if n.about? x.entry.name = some .written then
      some ⟨.watcher (x.state ≠ .present c), c⟩
    else
      none
  | _ => none

theorem FileState.content_write (key path c : String) (s : FileState) :
    (s.write key path c).content = if s = .present c then none else some c := by
  unfold write
  split <;> rfl

theorem FileState.content_remove (key path : String) (s : FileState) :
    (s.remove key path).content = none := by
  unfold remove
  split <;> rfl

/--
What a watcher puts into the cache is what it has read, if that is news.
-/
theorem Watcher.content_news (key : String) {x : Watcher} {n : Notice}
    {reading : Except Fault String} (hpending : x.pending = some (n, reading)) :
    (x.news key n reading).content = (lastKept x.reading?.toList).map (·.text) := by
  rw [Watcher.news]
  cases hn : n.about? x.entry.name with
  | none =>
    obtain ⟨events, hsame⟩ := x.state.handle_of_silent key x.path reading hn
    have hnone : x.reading? = none := by cases reading <;> simp [reading?, hpending, hn]
    rw [hsame, hnone]
    rfl
  | some kind =>
    have hupdate : x.state.handle key x.path x.entry.name n reading =
        x.state.update key x.path kind reading := (x.state.handle_of_about hn).1
    rw [hupdate]
    cases kind with
    | other =>
      have hnone : x.reading? = none := by cases reading <;> simp [reading?, hpending, hn]
      rw [hnone]
      rfl
    | removed =>
      have hnone : x.reading? = none := by cases reading <;> simp [reading?, hpending, hn]
      rw [FileState.update, FileState.content_remove, hnone]
      rfl
    | written =>
      cases reading with
      | ok c =>
        rw [FileState.update, FileState.content_write]
        by_cases hstate : x.state = .present c <;>
          simp [reading?, hpending, hn, hstate, lastKept, Reader.keeps]
      | error e =>
        have hnone : x.reading? = none := by simp [reading?, hpending]
        rw [hnone]
        cases e <;> simp [FileState.update, FileState.content_remove, FileState.unchanged, lastKept]

namespace FileSource

variable {key : String} {w : FileSource} {a : FileAction} {rs : List Reading}

/--
What becomes of a call to watch the file of a key, once the file is read.
-/
def reader (w : FileSource) (key : String) (registration : Disk.Registration) : Reader :=
  match w.watchers.get? key, registration with
  | some _, _ => .watch false
  | none, .ok _ => .watch true
  | none, .error _ => .refused

/--
What is read of the file of a key, once the one who has read it goes on.
-/
def reads (key : String) (w : FileSource) : FileAction → List Reading
  | .finish i registration =>
    match w.calls[i]? with
    | some (.getRead k _ (.ok c)) => if k = key then [⟨.get, c⟩] else []
    | some (.watchRead k _ (.ok c)) => if k = key then [⟨w.reader k registration, c⟩] else []
    | _ => []
  | .handle k => if k = key then ((w.watchers.get? k).bind Watcher.reading?).toList else []
  | _ => []

/--
What was read in a series of actions.
-/
def readings (key : String) (w : FileSource) (as : List FileAction) : List Reading :=
  Run.history (fun (w : FileSource) a => (w.step a).1) (reads key) w as

/--
Puts what was read of the file of a key into a cache.
-/
def keep (cache : Dict String String) (k : String) (rs : List Reading) : Dict String String :=
  match lastKept rs with
  | some r => cache.insert k r.text
  | none => cache

theorem get?_keep (cache : Dict String String) (k key : String) (rs : List Reading) :
    (keep cache k rs).get? key =
      ((lastKept (if k = key then rs else [])).map (·.text)).or (cache.get? key) := by
  rw [keep]
  by_cases hk : k = key
  . rw [if_pos hk]
    cases lastKept rs with
    | none => rfl
    | some r => simp [hk]
  . rw [if_neg hk]
    cases lastKept rs with
    | none => rfl
    | some r => simp [Dict.get?_insert, Ne.symm hk, lastKept]

theorem cache_handle (w : FileSource) (k : String) :
    (w.handle k).1.cache = keep w.cache k ((w.watchers.get? k).bind Watcher.reading?).toList := by
  obtain hidle | ⟨x, n, reading, hx, hpending⟩ := w.idle_or_taken k
  . have hnone : (w.watchers.get? k).bind Watcher.reading? = none := by
      cases hx : w.watchers.get? k with
      | none => rfl
      | some x => simp [Watcher.reading?, hidle x hx]
    rw [(handle_of_idle hidle).1, hnone]
    rfl
  . have hcontent := Watcher.content_news k hpending
    have hcache : (w.handle k).1.cache =
        (x.news k n reading).content.elim w.cache (w.cache.insert k) := by
      simp only [handle, hx, hpending, Watcher.news]
      cases (x.state.handle k x.path x.entry.name n reading).content <;> rfl
    rw [hcache, hcontent, hx, Option.bind_some, keep]
    cases lastKept x.reading?.toList <;> rfl

theorem cache_finish (w : FileSource) (i : Nat) (registration : Disk.Registration) :
    (w.finish i registration).1.cache.get? key =
      ((lastKept (w.reads key (.finish i registration))).map (·.text)).or (w.cache.get? key) := by
  simp only [finish, reads]
  cases w.calls[i]? with
  | none => rfl
  | some call =>
    cases call with
    | getRead k path reading =>
      cases reading with
      | ok c => exact get?_keep w.cache k key [⟨.get, c⟩]
      | error e =>
        simp only [finishGet]
        split <;> rfl
    | watchRead k path reading =>
      cases reading with
      | ok c =>
        simp only [finishWatch, reader]
        cases hx : w.watchers.get? k with
        | some x => exact get?_keep w.cache k key [⟨.watch false, c⟩]
        | none =>
          cases registration with
          | ok entry => exact get?_keep w.cache k key [⟨.watch true, c⟩]
          | error cause => exact get?_keep w.cache k key [⟨.refused, c⟩]
      | error e => rfl
    | get | got | watch | watching => rfl

/--
An action puts into the cache what was read last in it, if that is kept.
-/
theorem cache_step (w : FileSource) (a : FileAction) :
    (w.step a).1.cache.get? key =
      ((lastKept (w.reads key a)).map (·.text)).or (w.cache.get? key) := by
  cases a with
  | change c =>
    obtain ⟨watchers, hchange⟩ := w.change_frame c
    rw [step, hchange]
    rfl
  | finish i registration => exact w.cache_finish i registration
  | handle k =>
    rw [step, cache_handle, get?_keep]
    rfl
  | get k | watch k =>
    simp only [step, begin]
    split <;> rfl
  | read i =>
    simp only [step, read, setCall]
    split
    . split <;> rfl
    . split <;> rfl
    . rfl
  | look k =>
    simp only [step, look]
    split
    . split <;> rfl
    . rfl
  | drop =>
    simp only [step, drop]
    split <;> rfl
  | notify | receive | dropReceiver => rfl

/--
Without a watcher, only calls that are refused keep nothing of what they read.
-/
theorem refused_of_no_watcher (hnone : w.watchers.get? key = none)
    (hkept : lastKept (w.reads key a) = none) : ∀ r ∈ w.reads key a, r.reader = .refused := by
  cases a with
  | finish i registration =>
    revert hkept
    simp only [reads]
    split
    . split <;> simp [lastKept, Reader.keeps]
    . split
      . next hk =>
        subst hk
        cases registration <;> simp [reader, hnone, lastKept, Reader.keeps]
      . simp
    . simp
  | handle k =>
    rw [reads]
    split
    . next hk => simp [hk, hnone]
    . simp
  | _ => simp [reads]

/--
The cache has what was put there last for a key. That is nothing only if what was read was read by
calls that were refused, and then there is no watcher either.
-/
structure Caches (key : String) (w : FileSource) (rs : List Reading) : Prop where
  cache : w.cache.get? key = (lastKept rs).map (·.text)
  refused : lastKept rs = none → ∀ r ∈ rs, r.reader = .refused
  unwatched : lastKept rs = none → w.watchers.get? key = none

theorem Caches.step (hw : w.Caches key rs) (a : FileAction) :
    (w.step a).1.Caches key (rs ++ w.reads key a) := by
  refine ⟨?_, ?_, ?_⟩
  . rw [cache_step, hw.cache, lastKept_append]
    cases lastKept (w.reads key a) <;> rfl
  . intro hnone
    rw [lastKept_append, Option.or_eq_none_iff] at hnone
    refine List.forall_mem_append.2 ⟨hw.refused hnone.2, ?_⟩
    exact refused_of_no_watcher (hw.unwatched hnone.2) hnone.1
  . intro hnone
    rw [lastKept_append, Option.or_eq_none_iff] at hnone
    have heffect := w.watcher_effect key a
    rw [hw.unwatched hnone.2] at heffect
    generalize hx : (w.step a).1.watchers.get? key = o at heffect ⊢
    cases heffect with
    | absent | drop => rfl
    | make i path content entry hcall =>
      -- the call that makes the watcher has read the file
      have hread : w.reads key (.finish i (.ok entry)) = [⟨.watch true, content⟩] := by
        simp [reads, reader, hcall, hw.unwatched hnone.2]
      rw [hread] at hnone
      cases hnone.1

theorem Caches.start (disk : Disk) (channels : List (Channel Response))
    (items : Dict String String) : (FileSource.start disk channels items).Caches key [] :=
  ⟨rfl, by simp, fun _ => rfl⟩

theorem Caches.run (hw : w.Caches key []) (as : List FileAction) :
    (w.run as).1.Caches key (w.readings key as) := by
  rw [run_fst]
  exact Run.invariant_of_step (fun (w : FileSource) a => (w.step a).1) (reads key) (Caches key)
    (fun _ _ a hw => hw.step a) as w [] hw

theorem answer?_finish_of_failed {i : Nat} {path : String} {e : Fault}
    (hcall : w.calls[i]? = some (.getRead key path (.error e))) (registration : Disk.Registration) :
    (w.step (.finish i registration)).1.answer? i =
      some (((w.cache.get? key).map fun c => .ok ⟨c, .null⟩).getD (.error (.io path e))) := by
  have hlt := (List.getElem?_eq_some_iff.1 hcall).1
  simp only [step, finish, hcall, finishGet, setCall, answer?]
  cases w.cache.get? key <;> simp [hlt]

/--
If the file of a key cannot be read, a call for the text answers what was put into the cache last.
What was read after that was not news to the watcher, or was read by a call to watch a file that was
watched already. The call answers that the file cannot be read only if nothing has ever been read
but by calls to watch the file that were refused after that.
-/
theorem failed_call_answers_last_kept (disk : Disk) (channels : List (Channel Response))
    (items : Dict String String) (as : List FileAction) (i : Nat) (key path : String) (e : Fault)
    (registration : Disk.Registration)
    (hcall : ((FileSource.start disk channels items).run as).1.calls[i]? =
      some (.getRead key path (.error e))) :
    let rs := (FileSource.start disk channels items).readings key as
    let last := ((FileSource.start disk channels items).run as).1
    let answer := (last.step (.finish i registration)).1.answer? i
    ((∀ r ∈ rs, r.reader = .refused) → answer = some (.error (.io path e))) ∧
    ((∃ r ∈ rs, r.reader ≠ .refused) → ∃ pre r post, rs = pre ++ r :: post ∧
      r.reader.keeps = true ∧ (∀ q ∈ post, q.reader.keeps = false) ∧
      answer = some (.ok ⟨r.text, .null⟩)) := by
  intro rs last answer
  have hcaches : last.Caches key rs := (Caches.start disk channels items).run as
  have hanswer : answer = _ := answer?_finish_of_failed hcall registration
  rw [hcaches.cache] at hanswer
  refine ⟨?_, ?_⟩
  . intro hrefused
    have hkept : lastKept rs = none := by
      rw [lastKept, List.find?_eq_none]
      intro r hr
      rw [hrefused r (List.mem_reverse.1 hr)]
      simp [Reader.keeps]
    rw [hanswer, hkept]
    rfl
  . rintro ⟨q, hq, hread⟩
    cases hkept : lastKept rs with
    | none => exact absurd (hcaches.refused hkept q hq) hread
    | some r =>
      obtain ⟨hkeeps, pre, post, heq, hpost⟩ := lastKept_eq_some_iff.1 hkept
      refine ⟨pre, r, post, heq, hkeeps, hpost, ?_⟩
      rw [hanswer, hkept]
      rfl

/--
A file is watched, and its directory is moved away. In a new directory by the old name there is
another text, which is read by one more call to watch the file, and is gone when the text is asked
for.
-/
def watchedAgain : List FileAction :=
  let entry : Disk.Entry := ⟨21, some "d", "f"⟩
  [.change (.makeDirectory "$DIR/d"), .change (.write "$DIR/d/f" [49]), .watch "k", .read 0,
   .finish 0 (.ok entry), .change (.move "$DIR/d" "$DIR/e"), .change (.makeDirectory "$DIR/d"),
   .change (.write "$DIR/d/f" [50]), .watch "k", .read 1, .finish 1 (.ok entry),
   .change (.delete "$DIR/d/f"), .get "k", .read 2]

/--
As before, but the other text is read by a call for it. Then the first directory comes back, where
the watcher reads the text that it knows, before that is gone, too.
-/
def cameBack : List FileAction :=
  let entry : Disk.Entry := ⟨21, some "d", "f"⟩
  [.change (.makeDirectory "$DIR/d"), .change (.write "$DIR/d/f" [49]), .watch "k", .read 0,
   .finish 0 (.ok entry), .change (.move "$DIR/d" "$DIR/e"), .change (.makeDirectory "$DIR/d"),
   .change (.write "$DIR/d/f" [50]), .get "k", .read 1, .finish 1 (.ok entry),
   .change (.move "$DIR/d" "$DIR/x"), .change (.move "$DIR/e" "$DIR/d"),
   .change (.write "$DIR/d/f" [49]), .look "k", .handle "k", .look "k", .handle "k", .look "k",
   .handle "k", .look "k", .handle "k", .change (.delete "$DIR/d/f"), .get "k", .read 2]

/--
A file is read to be watched, and is gone with its directory before one can register for what
happens to it.
-/
def goneMeanwhile : List FileAction :=
  [.change (.makeDirectory "$DIR/d"), .change (.write "$DIR/d/f" [49]), .watch "k", .read 0,
   .change (.delete "$DIR/d/f"), .change (.delete "$DIR/d"),
   .finish 0 (.error "No path was found."), .get "k", .read 1]

def nestedSource : FileSource := start .empty [] (.ofList [("k", "$DIR/d/f")])

theorem cameBack_answers :
    let rs := nestedSource.readings "k" cameBack
    let last := (nestedSource.run cameBack).1
    last.calls[2]? = some (.getRead "k" "$DIR/d/f" (.error .notFound)) ∧
      ∃ pre r post, rs = pre ++ r :: post ∧ r.reader.keeps = true ∧
        (∀ q ∈ post, q.reader.keeps = false) ∧
        (last.step (.finish 2 (.error ""))).1.answer? 2 = some (.ok ⟨r.text, .null⟩) := by
  intro rs last
  have hcall : last.calls[2]? = some (.getRead "k" "$DIR/d/f" (.error .notFound)) := by
    decide +kernel
  have hread : ∃ r ∈ rs, r.reader ≠ .refused := by decide +kernel
  have hanswer := failed_call_answers_last_kept .empty [] (.ofList [("k", "$DIR/d/f")]) cameBack 2
    "k" "$DIR/d/f" .notFound (.error "")
  rw [← nestedSource] at hanswer
  exact ⟨hcall, (hanswer hcall).2 hread⟩

/--
What a call for the text of a file answers that is gone.
-/
def answerAfter (as : List FileAction) (call : Nat) : Option (Except ConfigError Response) :=
  let last := (nestedSource.run as).1
  match last.calls[call]? with
  | some (.getRead _ _ (.error .notFound)) => (last.step (.finish call (.error ""))).1.answer? call
  | _ => none

theorem latest_reading_is_not_answered :
    (nestedSource.readings "k" watchedAgain = [⟨.watch true, "1"⟩, ⟨.watch false, "2"⟩] ∧
      answerAfter watchedAgain 2 = some (.ok ⟨"1", .null⟩)) ∧
    (nestedSource.readings "k" cameBack =
        [⟨.watch true, "1"⟩, ⟨.get, "2"⟩, ⟨.watcher false, "1"⟩] ∧
      answerAfter cameBack 2 = some (.ok ⟨"2", .null⟩)) ∧
    (nestedSource.readings "k" goneMeanwhile = [⟨.refused, "1"⟩] ∧
      (nestedSource.run (goneMeanwhile.take 6)).1.disk.register "$DIR/d/f" =
        .error "No path was found." ∧
      answerAfter goneMeanwhile 1 = some (.error (.io "$DIR/d/f" .notFound))) := by
  decide +kernel

end FileSource

end Upkeep.Config
