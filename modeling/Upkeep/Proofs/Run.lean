/-!
This module contains runs of a system that does one action after the other: the history that the
actions leave behind, rules that they may keep to, and the induction over a run.
-/

namespace Upkeep.Run

variable {σ : Type u} {α : Type v} {μ : Type w}

/--
What a series of actions adds to the history.
-/
def history (step : σ → α → σ) (marks : σ → α → List μ) (s : σ) : List α → List μ
  | [] => []
  | a :: as => marks s a ++ history step marks (step s a) as

theorem history_append (step : σ → α → σ) (marks : σ → α → List μ) (s : σ) (as bs : List α) :
    history step marks s (as ++ bs) =
      history step marks s as ++ history step marks (as.foldl step s) bs := by
  induction as generalizing s with
  | nil => rfl
  | cons a as ih => simp [history, ih]

/--
Whether each action of a series keeps to a rule when its time has come.
-/
def Obeys (step : σ → α → σ) (rule : σ → α → Prop) (s : σ) : List α → Prop
  | [] => True
  | a :: as => rule s a ∧ Obeys step rule (step s a) as

instance instDecidableObeys (step : σ → α → σ) (rule : σ → α → Prop)
    [∀ s a, Decidable (rule s a)] (s : σ) : (as : List α) → Decidable (Obeys step rule s as)
  | [] => inferInstanceAs (Decidable True)
  | a :: as =>
    have : Decidable (Obeys step rule (step s a) as) := instDecidableObeys step rule (step s a) as
    inferInstanceAs (Decidable (rule s a ∧ Obeys step rule (step s a) as))

theorem obeys_of_forall_mem (step : σ → α → σ) (rule : σ → α → Prop) (s : σ) (as : List α)
    (h : ∀ a ∈ as, ∀ s, rule s a) : Obeys step rule s as := by
  induction as generalizing s with
  | nil => trivial
  | cons a as ih =>
    refine ⟨h a (List.mem_cons_self ..) s, ih _ ?_⟩
    intro a' ha'
    exact h a' (List.mem_cons_of_mem _ ha')

theorem Obeys.of_append {step : σ → α → σ} {rule : σ → α → Prop} {s : σ} {as bs : List α}
    (h : Obeys step rule s (as ++ bs)) : Obeys step rule s as := by
  induction as generalizing s with
  | nil => trivial
  | cons a as ih => exact ⟨h.1, ih h.2⟩

theorem Obeys.after {step : σ → α → σ} {rule : σ → α → Prop} {s : σ} {as bs : List α}
    (h : Obeys step rule s (as ++ bs)) : Obeys step rule (as.foldl step s) bs := by
  induction as generalizing s with
  | nil => exact h
  | cons a as ih => exact ih h.2

theorem Obeys.append {step : σ → α → σ} {rule : σ → α → Prop} {s : σ} {as bs : List α}
    (has : Obeys step rule s as) (hbs : Obeys step rule (as.foldl step s) bs) :
    Obeys step rule s (as ++ bs) := by
  induction as generalizing s with
  | nil => exact hbs
  | cons a as ih => exact ⟨has.1, ih has.2 hbs⟩

/--
What every action that keeps to the rule preserves is preserved by every run that keeps to it.
-/
theorem invariant (step : σ → α → σ) (marks : σ → α → List μ) (rule : σ → α → Prop)
    (P : σ → List μ → Prop)
    (hstep : ∀ s h a, rule s a → P s h → P (step s a) (h ++ marks s a))
    (as : List α) (s : σ) (h : List μ) (hs : P s h) (hrule : Obeys step rule s as) :
    P (as.foldl step s) (h ++ history step marks s as) := by
  induction as generalizing s h with
  | nil => simpa [history] using hs
  | cons a as ih =>
    have hrun := ih _ _ (hstep s h a hrule.1 hs) hrule.2
    rw [List.append_assoc] at hrun
    exact hrun

/--
What every action preserves is preserved by every run.
-/
theorem invariant_of_step (step : σ → α → σ) (marks : σ → α → List μ) (P : σ → List μ → Prop)
    (hstep : ∀ s h a, P s h → P (step s a) (h ++ marks s a))
    (as : List α) (s : σ) (h : List μ) (hs : P s h) :
    P (as.foldl step s) (h ++ history step marks s as) :=
  invariant step marks (fun _ _ => True) P (fun s h a _ hs => hstep s h a hs) as s h hs
    (obeys_of_forall_mem step _ s as fun _ _ _ => trivial)

/--
Actions that change nothing may be left out of a run.
-/
theorem foldl_filter_of_idle (step : σ → α → σ) (idle : α → Bool) (P : σ → Prop)
    (hstep : ∀ s a, P s → P (step s a)) (hidle : ∀ s a, P s → idle a = true → step s a = s)
    (as : List α) (s : σ) (hs : P s) :
    (as.filter fun a => !idle a).foldl step s = as.foldl step s := by
  induction as generalizing s with
  | nil => rfl
  | cons a as ih =>
    cases ha : idle a with
    | true => simpa [ha, hidle s a hs ha] using ih s hs
    | false => simpa [ha] using ih (step s a) (hstep s a hs)

/--
What shows of two runs is the same if the same actions of them show.
-/
theorem view_foldl_filter (step : σ → α → σ) (view : σ → τ) (shows : α → Bool)
    (hhidden : ∀ s a, shows a = false → view (step s a) = view s)
    (hshown : ∀ s t a, shows a = true → view s = view t → view (step s a) = view (step t a))
    (as : List α) (s t : σ) (hst : view s = view t) :
    view (as.foldl step s) = view ((as.filter shows).foldl step t) := by
  induction as generalizing s t with
  | nil => exact hst
  | cons a as ih =>
    cases ha : shows a with
    | true =>
      rw [List.filter_cons_of_pos ha]
      exact ih _ _ (hshown s t a ha hst)
    | false =>
      rw [List.filter_cons_of_neg (by simp [ha])]
      exact ih _ _ ((hhidden s a ha).trans hst)

theorem view_foldl_of_filter_eq (step : σ → α → σ) (view : σ → τ) (shows : α → Bool)
    (hhidden : ∀ s a, shows a = false → view (step s a) = view s)
    (hshown : ∀ s t a, shows a = true → view s = view t → view (step s a) = view (step t a))
    {as bs : List α} (hsame : as.filter shows = bs.filter shows) {s t : σ} (hst : view s = view t) :
    view (as.foldl step s) = view (bs.foldl step t) := by
  have has := view_foldl_filter step view shows hhidden hshown as s s rfl
  have hbs := view_foldl_filter step view shows hhidden hshown bs t s hst.symm
  rw [has, hbs, hsame]

/--
A step that also keeps the history.
-/
def recording (step : σ → α → σ) (marks : σ → α → List μ) (p : σ × List μ) (a : α) : σ × List μ :=
  (step p.1 a, p.2 ++ marks p.1 a)

theorem foldl_recording (step : σ → α → σ) (marks : σ → α → List μ) (as : List α) (s : σ)
    (h : List μ) :
    as.foldl (recording step marks) (s, h) = (as.foldl step s, h ++ history step marks s as) := by
  induction as generalizing s h with
  | nil => simp [history]
  | cons a as ih => rw [List.foldl_cons, recording, ih, List.foldl_cons, history, List.append_assoc]

/--
What two runs add to the history is the same if the same actions of them show.
-/
theorem history_of_filter_eq {τ : Type x} (step : σ → α → σ) (marks : σ → α → List μ)
    (view : σ → τ) (shows : α → Bool)
    (hhidden : ∀ s a, shows a = false → view (step s a) = view s ∧ marks s a = [])
    (hshown : ∀ s t a, shows a = true → view s = view t →
      view (step s a) = view (step t a) ∧ marks s a = marks t a)
    {as bs : List α} (hsame : as.filter shows = bs.filter shows) {s t : σ} (hst : view s = view t) :
    history step marks s as = history step marks t bs := by
  have hstart : (view s, ([] : List μ)) = (view t, []) := by rw [hst]
  have hrun := view_foldl_of_filter_eq (recording step marks) (fun p => (view p.1, p.2)) shows ?_ ?_
    hsame (s := (s, [])) (t := (t, [])) hstart
  . simpa only [foldl_recording, List.nil_append] using congrArg Prod.snd hrun
  . intro p a ha
    obtain ⟨hview, hmarks⟩ := hhidden p.1 a ha
    simp [recording, hview, hmarks]
  . intro p q a ha hpq
    obtain ⟨hview, hlist⟩ := Prod.mk.injEq .. ▸ hpq
    obtain ⟨hnext, hmarks⟩ := hshown p.1 q.1 a ha hview
    simp [recording, hnext, hmarks, hlist]

end Upkeep.Run
