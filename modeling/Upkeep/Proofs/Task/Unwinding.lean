import Upkeep.Task.Unwinding

/-!
This module contains the proof that guarded attempts inside each other come to what the unwinding of
a stack of scopes comes to: the execution of code ends, its result is that of the attempt, and what
it shows to the outside are the notes of the attempt.
-/

namespace Upkeep.Task

namespace Attempt

variable {x : Attempt α}

theorem andThen_of_ok {a : α} (hx : x.result = .ok a) (f : α → Attempt β) :
    x.andThen f = ⟨x.notes ++ (f a).notes, (f a).result⟩ := by
  rw [andThen, hx]

theorem andThen_of_error {p : Payload} (hx : x.result = .error p) (f : α → Attempt β) :
    x.andThen f = ⟨x.notes, .error p⟩ := by
  rw [andThen, hx]

theorem andThen_assoc (x : Attempt α) (f : α → Attempt β) (g : β → Attempt γ) :
    (x.andThen f).andThen g = x.andThen fun a => (f a).andThen g := by
  cases hx : x.result with
  | error p => rw [andThen_of_error hx, andThen_of_error hx, andThen_of_error rfl]
  | ok a =>
    rw [andThen_of_ok hx, andThen_of_ok hx]
    cases hf : (f a).result with
    | error p => rw [andThen_of_error rfl, andThen_of_error hf]
    | ok b => rw [andThen_of_ok rfl, andThen_of_ok hf, List.append_assoc]

end Attempt

namespace Guard

variable {g : Guard} {f : Report → Attempt α} {x : Attempt β}

/--
What is noted of a panic before the callback is told.
-/
def warnings (g : Guard) (r : Report) : List Note :=
  g.metric.toList.map .counted ++ if g.log then [.emitted (Recovery.event r)] else []

theorem recover_recovery (g : Guard) (callback : Report → Attempt α) (r : Report) :
    (g.recovery callback).recover r =
      ⟨g.warnings r ++ (if g.tells then (callback r).notes else []),
        if g.tells then (callback r).result.map fun _ => () else .ok ()⟩ := by
  have hwarned : (g.recovery callback).recover r = Attempt.andThen ⟨g.warnings r, .ok ()⟩ fun _ =>
      if g.tells then (callback r).andThen fun _ => .value () else .value () := by
    obtain ⟨label, metric, log, tells⟩ := g
    cases metric <;> cases log <;> cases tells <;> rfl
  rw [hwarned, Attempt.andThen_of_ok rfl]
  cases g.tells with
  | false => rfl
  | true =>
    rw [if_pos rfl, if_pos rfl, if_pos rfl]
    cases hr : (callback r).result with
    | error p => rw [Attempt.andThen_of_error hr]; rfl
    | ok a => rw [Attempt.andThen_of_ok hr, Attempt.value, List.append_nil]; rfl

theorem guarded_of_ok {a : β} (hx : x.result = .ok a) (o : Recovery) (label : String) :
    o.guarded label x = ⟨x.notes, .ok (some a)⟩ := by
  rw [Recovery.guarded, hx]

/--
A panic costs the value. If the callback panics as well, that panic gets out.
-/
theorem guarded_of_error {p : Payload} (hx : x.result = .error p) :
    (g.recovery f).guarded g.label x =
      ⟨x.notes ++ (g.warnings (g.report p) ++
          if g.tells then (f (g.report p)).notes else []),
        if g.tells then (f (g.report p)).result.map fun _ => none else .ok none⟩ := by
  rw [Recovery.guarded, hx]
  dsimp only
  rw [Attempt.andThen_of_ok rfl, ← report, recover_recovery]
  cases g.tells with
  | false => simp [Attempt.andThen, Attempt.value]
  | true =>
    rw [if_pos rfl, if_pos rfl, if_pos rfl]
    cases hr : (f (g.report p)).result with
    | error q => rw [Attempt.andThen_of_error rfl]; rfl
    | ok a => rw [Attempt.andThen_of_ok rfl, Attempt.value, List.append_nil]; rfl

end Guard

theorem Scope.notes_reaction (s : Scope) (p : Payload) :
    (s.reaction p : List (Mark α)).flatMap Mark.notes = s.guard.warnings (s.guard.report p) := by
  obtain ⟨serial, label, metric, log, tells⟩ := s
  cases metric <;> cases log <;> cases tells <;> rfl

theorem Frame.unwind_append {above : List (Frame α)} (habove : ∀ f ∈ above, f.guarding? = none)
    (stack : List (Frame α)) : unwind (above ++ stack) = unwind stack := by
  induction above with
  | nil => rfl
  | cons f above ih =>
    cases f with
    | body s callback next => cases habove _ (List.mem_cons_self ..)
    | callback s next => exact ih fun f hf => habove f (List.mem_cons_of_mem _ hf)

namespace Execution

theorem run_add (x : Execution α) (j k : Nat) :
    x.run (j + k) = (((x.run j).1.run k).1, (x.run j).2 ++ ((x.run j).1.run k).2) := by
  induction j generalizing x with
  | zero => simp [run]
  | succ j ih => simp [Nat.succ_add, run, ih]

/--
Whether an execution comes to another, and leaves some marks on the way.
-/
def Leads (x : Execution α) (h : List (Mark α)) (y : Execution α) : Prop := ∃ k, x.run k = (y, h)

namespace Leads

variable {x y z : Execution α} {h h' : List (Mark α)}

theorem refl (x : Execution α) : Leads x [] x := ⟨0, rfl⟩

theorem step (x : Execution α) : Leads x x.step.2 x.step.1 := ⟨1, by simp [run]⟩

theorem trans (hxy : Leads x h y) (hyz : Leads y h' z) : Leads x (h ++ h') z := by
  obtain ⟨j, hj⟩ := hxy
  obtain ⟨k, hk⟩ := hyz
  exact ⟨j + k, by rw [run_add, hj, hk]⟩

end Leads

/--
How the execution of code ends on top of a stack. A panic leaves the scopes on the stack that were
running their callbacks.
-/
def Ends (c : Code α) (stack : List (Frame α)) (n : Nat) : Prop :=
  ∃ h m, h.flatMap Mark.notes = c.attempt.notes ∧
    match c.attempt.result with
    | .ok a => Leads (.running c stack n) h (.running (.value a) stack m)
    | .error p => ∃ above : List (Frame α), (∀ f ∈ above, f.guarding? = none) ∧
      Leads (.running c stack n) h (.running (.panic p) (above ++ stack) m)

/--
Code ends as its attempt does if it leads to code that does so.
-/
theorem Ends.of_leads {c next : Code α} {stack t : List (Frame α)} {n m : Nat}
    {h : List (Mark α)} (hlead : Leads (.running c stack n) h (.running next (t ++ stack) m))
    (ht : ∀ f ∈ t, f.guarding? = none) (hnext : Ends next (t ++ stack) m)
    (hnotes : c.attempt.notes = h.flatMap Mark.notes ++ next.attempt.notes)
    (hresult : c.attempt.result = next.attempt.result ∧ t = [] ∨
      ∃ p, c.attempt.result = .error p ∧ next.attempt.result = .error p) : Ends c stack n := by
  obtain ⟨h', m', hnotes', hends⟩ := hnext
  refine ⟨h ++ h', m', by rw [List.flatMap_append, hnotes', hnotes], ?_⟩
  rcases hresult with ⟨hsame, rfl⟩ | ⟨p, hp, hp'⟩
  . rw [hsame]
    cases hr : next.attempt.result with
    | ok a =>
      rw [hr] at hends
      exact hlead.trans hends
    | error p =>
      rw [hr] at hends
      obtain ⟨above, habove, hends⟩ := hends
      exact ⟨above, habove, hlead.trans hends⟩
  . rw [hp'] at hends
    rw [hp]
    obtain ⟨above, habove, hends⟩ := hends
    refine ⟨above ++ t, List.forall_mem_append.2 ⟨habove, ht⟩, ?_⟩
    rw [List.append_assoc]
    exact hlead.trans hends

theorem step_panic {above : List (Frame α)} (habove : ∀ f ∈ above, f.guarding? = none) (p : Payload)
    (s : Scope) (callback : Report → Code α) (next : Option α → Code α) (rest : List (Frame α))
    (n : Nat) :
    (running (.panic p) (above ++ .body s callback next :: rest) n).step =
      if s.guard.tells then
        (.running (callback (s.guard.report p)) (.callback s next :: rest) n,
          .raised p :: s.reaction p)
      else
        (.running (next none) rest n, .raised p :: (s.reaction p ++ [.left s none])) := by
  rw [step, Frame.unwind_append habove]
  rfl

theorem leads_of_step {x y : Execution α} {h : List (Mark α)} (hstep : x.step = (y, h)) :
    Leads x h y := by
  have hlead := Leads.step x
  rwa [hstep] at hlead

section

variable {g : Guard} {callback : Report → Code α} {body : Code α} {next : Option α → Code α}
  {stack : List (Frame α)} {n : Nat}

/--
The body gives a value, and the scope is left with it.
-/
theorem Ends.scope_of_ok (hbody : Ends body (.body ⟨n, g⟩ callback next :: stack) (n + 1)) {a : α}
    (ha : body.attempt.result = .ok a) (hnext : ∀ v m, Ends (next v) stack m) :
    Ends (.scope g callback body next) stack n := by
  obtain ⟨h, m, hnotes, hends⟩ := hbody
  rw [ha] at hends
  have henter := Leads.step (running (.scope g callback body next) stack n)
  have hleave := Leads.step (running (.value a) (.body ⟨n, g⟩ callback next :: stack) m)
  have hattempt : (Code.scope g callback body next).attempt =
      ⟨body.attempt.notes ++ (next (some a)).attempt.notes, (next (some a)).attempt.result⟩ := by
    rw [Code.attempt, Guard.guarded_of_ok ha, Attempt.andThen_of_ok rfl]
  refine Ends.of_leads (t := []) ((henter.trans hends).trans hleave) (by simp)
    (hnext (some a) m) ?_ (.inl ⟨by rw [hattempt], rfl⟩)
  rw [hattempt, ← hnotes]
  simp [step, Mark.notes]

/--
The body panics. The scope is left without a value, unless its callback panics as well. That panic
is one of the code around the scope.
-/
theorem Ends.scope_of_error (hbody : Ends body (.body ⟨n, g⟩ callback next :: stack) (n + 1))
    {p : Payload} (hp : body.attempt.result = .error p) (hnext : ∀ v m, Ends (next v) stack m)
    (hcallback : ∀ r m, Ends (callback r) (.callback ⟨n, g⟩ next :: stack) m) :
    Ends (.scope g callback body next) stack n := by
  obtain ⟨h, m, hnotes, hends⟩ := hbody
  rw [hp] at hends
  obtain ⟨above, habove, hends⟩ := hends
  have hentered := (Leads.step (running (.scope g callback body next) stack n)).trans hends
  have hcaught := step_panic habove p ⟨n, g⟩ callback next stack m
  have hattempt : (Code.scope g callback body next).attempt = _ :=
    congrArg (Attempt.andThen · fun v => (next v).attempt) (Guard.guarded_of_error (g := g)
      (f := fun r => (callback r).attempt) hp)
  have hnoted : (Scope.reaction ⟨n, g⟩ p : List (Mark α)).flatMap Mark.notes =
      g.warnings (g.report p) := Scope.notes_reaction ⟨n, g⟩ p
  cases htells : g.tells with
  | false =>
    simp only [htells, Bool.false_eq_true, if_false] at hattempt hcaught
    rw [Attempt.andThen_of_ok rfl] at hattempt
    refine Ends.of_leads (t := []) (hentered.trans (leads_of_step hcaught)) (by simp)
      (hnext none m) ?_ (.inl ⟨by rw [hattempt], rfl⟩)
    rw [hattempt]
    simp [step, Mark.notes, hnotes, hnoted]
  | true =>
    simp only [htells, if_true] at hattempt hcaught
    have htold := hentered.trans (leads_of_step hcaught)
    cases hr : (callback (g.report p)).attempt.result with
    | ok a =>
      obtain ⟨h', m', hnotes', hends'⟩ := hcallback (g.report p) m
      rw [hr] at hends' hattempt
      rw [Attempt.andThen_of_ok rfl] at hattempt
      have hresume := Leads.step (running (.value a) (.callback ⟨n, g⟩ next :: stack) m')
      refine Ends.of_leads (t := []) ((htold.trans hends').trans hresume) (by simp)
        (hnext none m') ?_ (.inl ⟨by rw [hattempt], rfl⟩)
      rw [hattempt]
      simp [step, Mark.notes, hnotes, hnoted, hnotes']
    | error q =>
      -- The frame of the callback stays on the stack until a scope around it catches the panic.
      rw [hr, Attempt.andThen_of_error rfl] at hattempt
      refine Ends.of_leads (t := [.callback ⟨n, g⟩ next]) htold (by simp [Frame.guarding?])
        (hcallback (g.report p) m) ?_ (.inr ⟨q, by rw [hattempt], hr⟩)
      rw [hattempt]
      simp [step, Mark.notes, hnotes, hnoted]

end

theorem ends (c : Code α) (stack : List (Frame α)) (n : Nat) : Ends c stack n := by
  induction c generalizing stack n with
  | value a => exact ⟨[], n, rfl, .refl _⟩
  | panic p => exact ⟨[], n, rfl, [], by simp, .refl _⟩
  | note m next ih =>
    exact Ends.of_leads (t := []) (.step _) (by simp) (ih stack n) rfl (.inl ⟨rfl, rfl⟩)
  | scope g callback body next ihcallback ihbody ihnext =>
    have hbody := ihbody (.body ⟨n, g⟩ callback next :: stack) (n + 1)
    cases hr : body.attempt.result with
    | ok a => exact hbody.scope_of_ok hr fun v m => ihnext v stack m
    | error p =>
      exact hbody.scope_of_error hr (fun v m => ihnext v stack m) fun r m => ihcallback r _ m

/--
Code is executed to its end. It has the result of the attempt and leaves its notes.
-/
theorem leads_done (c : Code α) :
    ∃ h, Leads (start c) h (.done c.attempt.result) ∧ h.flatMap Mark.notes = c.attempt.notes := by
  obtain ⟨h, m, hnotes, hends⟩ := ends c [] 0
  cases hr : c.attempt.result with
  | ok a =>
    rw [hr] at hends
    have hlast : Leads (running (.value a) [] m) [.gave a] (.done (.ok a)) := .step _
    exact ⟨_, hends.trans hlast, by simp [Mark.notes, hnotes]⟩
  | error p =>
    rw [hr] at hends
    obtain ⟨above, habove, hends⟩ := hends
    have hescape : (running (.panic p) (above ++ []) m).step = (.done (.error p), [.raised p]) := by
      rw [step, Frame.unwind_append habove]
      rfl
    exact ⟨_, hends.trans (leads_of_step hescape), by simp [Mark.notes, hnotes]⟩

end Execution

end Upkeep.Task
