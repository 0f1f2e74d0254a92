import Mathlib.Data.List.Induction
import Upkeep.Proofs.Config.Supply

/-!
This module contains the life of the calls of a source, and of the source itself. A call that fails
leaves nothing behind. When all calls are over, the source can be given up, and from then on it does
nothing any more.
-/

namespace Upkeep.Config

namespace FileSource

variable {w : FileSource} {a : FileAction}

theorem run_concat (w : FileSource) (as : List FileAction) (a : FileAction) :
    w.run (as ++ [a]) = (((w.run as).1.step a).1, (w.run as).2 ++ ((w.run as).1.step a).2) := by
  rw [run, List.foldl_append]
  rfl

theorem isAlive_step_of_ne (ha : a ≠ .drop) : (w.step a).1.isAlive = w.isAlive := by
  cases a with
  | change c =>
    obtain ⟨watchers, hchange⟩ := w.change_frame c
    rw [step, hchange]
  | finish i registration => exact (w.finish_frame i registration).2.2
  | drop => exact absurd rfl ha
  | get | watch | read | look | handle => grind [step, begin, read, setCall, look, handle]
  | notify | receive | dropReceiver => rfl

/--
A source that was given up has no watchers, and all its calls are over.
-/
def Quits (w : FileSource) : Prop :=
  w.isAlive = false → w.watchers = .empty ∧ ∀ c ∈ w.calls, c.isOver = true

/--
Whatever happens to a source that was given up, it does nothing.
-/
theorem step_of_dead (hw : w.Quits) (hdead : w.isAlive = false) (a : FileAction) :
    ∃ disk channels, w.step a = ({ w with disk, channels }, []) ∧
      ((∀ i, a ≠ .receive i) → (∀ i, a ≠ .dropReceiver i) → channels = w.channels) := by
  obtain ⟨hwatchers, hcalls⟩ := hw hdead
  have hnone : ∀ k, w.watchers.get? k = none := by simp [hwatchers]
  have hstill : ∃ disk channels, (w, ([] : List Event)) = ({ w with disk, channels }, []) ∧
      ((∀ i, a ≠ .receive i) → (∀ i, a ≠ .dropReceiver i) → channels = w.channels) :=
    ⟨w.disk, w.channels, rfl, fun _ _ => rfl⟩
  have hover : ∀ (i : Nat) c, w.calls[i]? = some c → c.isOver = true :=
    fun i c hc => hcalls c (List.mem_of_getElem? hc)
  cases a with
  | change c =>
    refine ⟨(w.disk.change c).1, w.channels, ?_, fun _ _ => rfl⟩
    simp [step, change, hwatchers, Dict.empty]
  | notify k n =>
    have hsame : w.notify k n = w := by simp [notify, Dict.modify, hnone]
    rw [step, hsame]
    exact hstill
  | get | watch =>
    have hsame : ∀ c, w.begin c = w := by simp [begin, hdead]
    rw [step, hsame]
    exact hstill
  | read i =>
    have hsame : w.read i = w := by
      unfold read
      split
      . next hc => cases hover i _ hc
      . next hc => cases hover i _ hc
      . rfl
    rw [step, hsame]
    exact hstill
  | finish i registration =>
    have hsame : w.finish i registration = (w, []) := by
      unfold finish
      split
      . next hc => cases hover i _ hc
      . next hc => cases hover i _ hc
      . next hc => cases hover i _ hc
      . rfl
    rw [step, hsame]
    exact hstill
  | look k =>
    have hsame : w.look k = w := by simp only [look, hnone]
    rw [step, hsame]
    exact hstill
  | handle k =>
    have hsame : w.handle k = (w, []) := by simp only [handle, hnone]
    rw [step, hsame]
    exact hstill
  | receive i => exact ⟨w.disk, _, rfl, fun h _ => absurd rfl (h i)⟩
  | dropReceiver i => exact ⟨w.disk, _, rfl, fun _ h => absurd rfl (h i)⟩
  | drop =>
    have hidle : w.isIdle = true := by
      simp only [isIdle, hwatchers, Dict.empty, List.all_nil, Bool.and_true, List.all_eq_true]
      exact hcalls
    have hsame : w.drop = (w, []) := by
      obtain ⟨disk, items, cache, watchers, isAlive, calls, channels⟩ := w
      dsimp only at hdead hwatchers
      subst hdead hwatchers
      rw [drop, if_pos hidle]
      rfl
    rw [step, hsame]
    exact hstill

theorem Quits.step (hw : w.Quits) (a : FileAction) : (w.step a).1.Quits := by
  cases halive : w.isAlive with
  | false =>
    obtain ⟨disk, channels, hstep, -⟩ := step_of_dead hw halive a
    rw [hstep]
    exact hw
  | true =>
    intro hdead
    by_cases ha : a = .drop
    . subst ha
      cases hidle : w.isIdle with
      | false =>
        rw [FileSource.step, drop, hidle] at hdead
        exact absurd (halive.symm.trans hdead) (by simp)
      | true =>
        rw [FileSource.step, drop, if_pos hidle]
        rw [isIdle, Bool.and_eq_true, List.all_eq_true] at hidle
        exact ⟨rfl, hidle.1⟩
    . rw [isAlive_step_of_ne ha, halive] at hdead
      cases hdead

theorem quits_run (disk : Disk) (channels : List (Channel Response)) (items : Dict String String)
    (as : List FileAction) : ((start disk channels items).run as).1.Quits := by
  have hstart : (start disk channels items).Quits := by
    intro hdead
    cases hdead
  rw [run_fst]
  exact List.foldlRecOn as _ hstart fun w hw a _ => hw.step a

theorem membersExist_run (disk : Disk) (channels : List (Channel Response))
    (items : Dict String String) (as : List FileAction) :
    ((start disk channels items).run as).1.MembersExist := by
  have hstart : (start disk channels items).MembersExist := by
    intro k x hx
    cases hx
  rw [run_fst]
  exact List.foldlRecOn as _ hstart fun w hw a _ => hw.step a

theorem over_run {i : Nat} {c : FileCall} (hi : w.calls[i]? = some c) (hover : c.isOver = true)
    (as : List FileAction) : (w.run as).1.calls[i]? = some c := by
  rw [run_fst]
  exact List.foldlRecOn as _ (motive := fun w : FileSource => w.calls[i]? = some c) hi
    fun w hw a _ => over_step hw hover

theorem isWatch_run {i : Nat} {c : FileCall} (hi : w.calls[i]? = some c) (as : List FileAction) :
    ∃ c', (w.run as).1.calls[i]? = some c' ∧ c'.isWatch = c.isWatch := by
  rw [run_fst]
  refine List.foldlRecOn as _
    (motive := fun w : FileSource => ∃ c', w.calls[i]? = some c' ∧ c'.isWatch = c.isWatch)
    ⟨c, hi, rfl⟩ ?_
  rintro w ⟨c', hc', hkind⟩ a -
  obtain ⟨c'', hc'', hkind'⟩ := isWatch_step hc' a
  exact ⟨c'', hc'', hkind'.trans hkind⟩

theorem channel?_eq_some_iff {i : Nat} {r : Except ConfigError Nat} :
    w.channel? i = some r ↔ w.calls[i]? = some (.watching r) := by
  unfold channel?
  split
  . next h => simp [h]
  . next hnot =>
    constructor
    . simp
    . intro h
      exact absurd h (hnot r)

/--
A call to watch a file that fails in the end changes nothing on its way but how far it has come.
-/
theorem step_of_failed {i : Nat} {e : ConfigError} (as : List FileAction)
    (ha : a = .read i ∨ ∃ registration, a = .finish i registration)
    (hfailed : ((w.step a).1.run as).1.channel? i = some (.error e)) :
    w.step a = ({ w with calls := (w.step a).1.calls }, []) := by
  have hlast := channel?_eq_some_iff.1 hfailed
  cases hc : w.calls[i]? with
  | none => rcases ha with rfl | ⟨registration, rfl⟩ <;> simp [step, read, finish, hc]
  | some c =>
    obtain ⟨c', hc', hkind⟩ := isWatch_step hc a
    obtain ⟨c'', hc'', hkind'⟩ := isWatch_run hc' as
    have hwatch : c.isWatch = true := by
      rw [hlast, Option.some.injEq] at hc''
      rw [← hkind, ← hkind', ← hc'']
      rfl
    cases c with
    | get | getRead | got => cases hwatch
    | watch key =>
      rcases ha with rfl | ⟨registration, rfl⟩
      . simp only [step, read, hc, setCall]
        split <;> rfl
      . simp [step, finish, hc]
    | watchRead key path r =>
      rcases ha with rfl | ⟨registration, rfl⟩
      . simp [step, read, hc]
      . cases r with
        | ok content =>
          cases haccepts : w.accepts key registration with
          | true =>
            -- a call that has succeeded does not fail any more
            have hlater := over_run (calls_finish_of_accepts hc haccepts) rfl as
            rw [step, hlater] at hlast
            cases hlast
          | false =>
            obtain ⟨cause, -, -, hfinish⟩ := finish_of_not_accepts hc haccepts
            rw [step, hfinish]
            rfl
        | error e' => simp only [step, finish, hc, setCall]
    | watching r => rcases ha with rfl | ⟨registration, rfl⟩ <;> simp [step, read, finish, hc]

/--
When all calls are over and the watchers have handled what they have taken, the source can be given
up.
-/
theorem isIdle_of_handled (hcalls : ∀ c ∈ w.calls, c.isOver = true)
    (hhandled : ∀ k x, w.watchers.get? k = some x → x.pending = none) : w.isIdle = true := by
  rw [isIdle, Bool.and_eq_true, List.all_eq_true, List.all_eq_true]
  refine ⟨hcalls, ?_⟩
  intro e he
  rw [hhandled e.1 e.2 (w.watchers.get?_of_mem he)]
  rfl

theorem calls_handle (w : FileSource) (k : String) : (w.handle k).1.calls = w.calls := by
  unfold handle
  split
  . split <;> rfl
  . rfl

/--
A watcher that has handled what it has taken is idle, and stays so while others handle theirs.
-/
theorem pending_handle {k k' : String} {x' : Watcher}
    (hx' : (w.step (.handle k)).1.watchers.get? k' = some x') (hpending : x'.pending ≠ none) :
    k' ≠ k ∧ ∃ x, w.watchers.get? k' = some x ∧ x.pending ≠ none := by
  have heffect := w.watcher_effect k' (.handle k)
  rw [hx'] at heffect
  generalize w.watchers.get? k' = o at heffect ⊢
  cases heffect with
  | move _ x _ hmove =>
    cases hmove with
    | hear _ hidle =>
      refine ⟨?_, x, rfl, hpending⟩
      rintro rfl
      exact hpending (hidle rfl)
    | handle n reading => exact absurd rfl hpending

theorem handled_run (ks : List String) (w : FileSource)
    (hks : ∀ k x, w.watchers.get? k = some x → x.pending ≠ none → k ∈ ks) :
    (w.run (ks.map .handle)).1.calls = w.calls ∧
      ∀ k x, (w.run (ks.map .handle)).1.watchers.get? k = some x → x.pending = none := by
  rw [run_fst]
  induction ks generalizing w with
  | nil =>
    refine ⟨rfl, ?_⟩
    intro k x hx
    by_contra hpending
    cases hks k x hx hpending
  | cons k ks ih =>
    have hrest := ih (w.step (.handle k)).1 ?_
    . exact ⟨hrest.1.trans (w.calls_handle k), hrest.2⟩
    . intro k' x' hx' hpending
      obtain ⟨hne, x, hx, hold⟩ := pending_handle hx' hpending
      exact (List.mem_cons.1 (hks k' x hx hold)).resolve_left hne

/--
Once all calls are over, a source can be given up as soon as its watchers have handled what they
have taken.
-/
theorem isAlive_drop_of_over (hcalls : ∀ c ∈ w.calls, c.isOver = true) :
    (w.run (w.watchers.keys.map .handle ++ [.drop])).1.isAlive = false := by
  obtain ⟨hsame, hhandled⟩ := handled_run w.watchers.keys w
    fun k x hx _ => w.watchers.mem_keys_of_get? k x hx
  have hidle : (w.run (w.watchers.keys.map .handle)).1.isIdle = true :=
    isIdle_of_handled (hsame ▸ hcalls) hhandled
  rw [run_concat, step, drop, if_pos hidle]

end FileSource

end Upkeep.Config
