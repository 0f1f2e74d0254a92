import Upkeep.Proofs.Lists
import Upkeep.Proofs.Task.Unwinding

/-!
This module contains what the marks of an execution tell of its scopes: which scopes guard the code
at a time, who takes care of a panic, and what becomes of a scope that was entered.
-/

namespace Upkeep.Task

section

variable {α : Type u}

namespace Mark

def entered? : Mark α → Option Scope
  | entered s => some s
  | _ => none

/--
The scope that a mark is about.
-/
def scope? : Mark α → Option Scope
  | entered s => some s
  | caught s _ => some s
  | counted s _ => some s
  | logged s _ => some s
  | told s _ => some s
  | left s _ => some s
  | _ => none

/--
How a mark moves the guards. The guard of a scope is down as soon as it has caught a panic.
-/
def shift (up : List Scope) : Mark α → List Scope
  | entered s => up ++ [s]
  | caught s _ => up.filter (· ≠ s)
  | left s _ => up.filter (· ≠ s)
  | _ => up

end Mark

/--
The scopes whose guards are up after some marks, the innermost one last.
-/
def openScopes (h : List (Mark α)) : List Scope := h.foldl Mark.shift []

/--
The scope that takes care of a panic.
-/
def innermost? (h : List (Mark α)) : Option Scope := (openScopes h).getLast?

/--
The scopes that a scope was entered in.
-/
def around (s : Scope) (h : List (Mark α)) : List Scope :=
  openScopes (h.takeWhile fun m => m.entered? ≠ some s)

/--
All that happens to a scope.
-/
def story (s : Scope) (h : List (Mark α)) : List (Mark α) := h.filter fun m => m.scope? = some s

/--
Whether a mark fits what has happened before. A scope only catches the panic before it if its guard
is the innermost one, and only gives the value before it if that is the value of its body. Either
way the guards around it are those that it was entered in.
-/
def Mark.Fits (h : List (Mark α)) : Mark α → Prop
  | entered s => ∀ m ∈ h, m.scope? ≠ some s
  | caught s r => ∃ before p, h = before ++ [raised p] ∧ r = s.guard.report p ∧
      openScopes before = around s before ++ [s]
  | left s (some a) => ∃ before, h = before ++ [gave a] ∧ openScopes before = around s before ++ [s]
  | left s none => openScopes h = around s h
  | _ => True

/--
What may become of a scope that was entered: it is left with the value of its body, it recovers from
a panic, or its callback panics as well. That panic is one of the code that the scope was entered
in.
-/
inductive Fate (h : List (Mark α)) (s : Scope) : Prop
  | yielded (a : α) (hstory : story s h = [.entered s, .left s (some a)])
  | recovered (p : Payload) (hstory : story s h = .entered s :: (s.reaction p ++ [.left s none]))
  | broken (p q : Payload) (pre post : List (Mark α)) (htells : s.guard.tells = true)
      (hstory : story s h = .entered s :: s.reaction p) (hraised : h = pre ++ .raised q :: post)
      (htold : .told s (s.guard.report p) ∈ pre) (haround : openScopes pre = around s pre)

/--
Whether the marks of an execution that is over are in order.
-/
structure Orderly (h : List (Mark α)) (result : Except Payload α) : Prop where
  /-- Each mark fits those before it. -/
  fits : ∀ pre m post, h = pre ++ m :: post → m.Fits pre
  /-- Each scope has its fate. -/
  settled : ∀ m ∈ h, ∀ s, m.scope? = some s → Fate h s
  /-- The innermost scope takes care of a panic at once, or else the panic gets out. -/
  handled : ∀ pre p post, h = pre ++ .raised p :: post →
    (∃ s, innermost? pre = some s ∧ s.reaction p <+: post) ∨
      openScopes pre = [] ∧ post = [] ∧ result = .error p
  /-- The last mark tells the result. -/
  ended : ∃ pre, openScopes pre = [] ∧
    ((∃ a, result = .ok a ∧ h = pre ++ [.gave a]) ∨ ∃ p, result = .error p ∧ h = pre ++ [.raised p])

variable {h b : List (Mark α)} {s : Scope} {m : Mark α} {p : Payload}

theorem openScopes_append (h b : List (Mark α)) :
    openScopes (h ++ b) = b.foldl Mark.shift (openScopes h) :=
  List.foldl_append

theorem scope?_of_mem_reaction (hm : m ∈ s.reaction p) : m.scope? = some s := by
  revert m
  obtain ⟨serial, label, metric, log, tells⟩ := s
  cases metric <;> cases log <;> cases tells <;> simp [Scope.reaction, Mark.scope?]

/--
Once a scope has caught a panic, the rest of what it does moves no guards.
-/
theorem foldl_shift_reaction (s : Scope) (p : Payload) (up : List Scope) :
    (.raised p :: s.reaction p : List (Mark α)).foldl Mark.shift up = up.filter (· ≠ s) := by
  obtain ⟨serial, label, metric, log, tells⟩ := s
  cases metric <;> cases log <;> cases tells <;> simp [Scope.reaction, Mark.shift]

theorem fits_of_mem_tail_reaction (hm : m ∈ (s.reaction p).tail) (h : List (Mark α)) :
    m.Fits h := by
  revert m
  obtain ⟨serial, label, metric, log, tells⟩ := s
  cases metric <;> cases log <;> cases tells <;> simp [Scope.reaction, Mark.Fits]

theorem told_mem_reaction (htells : s.guard.tells = true) (p : Payload) :
    .told s (s.guard.report p) ∈ (s.reaction p : List (Mark α)) := by
  simp [Scope.reaction, htells]

theorem story_append (s : Scope) (h b : List (Mark α)) :
    story s (h ++ b) = story s h ++ story s b :=
  List.filter_append ..

theorem story_of_forall_ne (hb : ∀ m ∈ b, m.scope? ≠ some s) : story s b = [] := by
  simpa [story, List.filter_eq_nil_iff] using hb

theorem story_of_forall_eq (hb : ∀ m ∈ b, m.scope? = some s) : story s b = b := by
  simpa [story, List.filter_eq_self] using hb

theorem story_append_of_forall_ne (hb : ∀ m ∈ b, m.scope? ≠ some s) :
    story s (h ++ b) = story s h := by
  rw [story_append, story_of_forall_ne hb, List.append_nil]

theorem mem_of_mem_story (hm : m ∈ story s h) : m ∈ h := (List.mem_filter.1 hm).1

theorem around_append (hs : .entered s ∈ h) (b : List (Mark α)) :
    around s (h ++ b) = around s h := by
  have hstop : ¬ ∀ m ∈ h, m.entered? ≠ some s := fun hall => hall _ hs rfl
  rw [around, around, List.takeWhile_append]
  split
  . next hlen =>
    have hall := List.all_takeWhile (p := fun m : Mark α => decide (m.entered? ≠ some s)) (l := h)
    rw [(List.takeWhile_prefix _).eq_of_length hlen, List.all_eq_true] at hall
    exact absurd (fun m hm => of_decide_eq_true (hall m hm)) hstop
  . rfl

theorem around_entered (hs : ∀ m ∈ h, m.scope? ≠ some s) :
    around s (h ++ [.entered s]) = openScopes h := by
  have hall : ∀ m ∈ h, decide (m.entered? ≠ some s) = true := by
    intro m hm
    refine decide_eq_true fun hentered => hs m hm ?_
    cases m with
    | entered s' => exact hentered
    | _ => cases hentered
  rw [around, List.takeWhile_append_of_pos hall]
  simp [Mark.entered?]

theorem Fate.append (hf : Fate h s) (hb : ∀ m ∈ b, m.scope? ≠ some s) : Fate (h ++ b) s := by
  have hsame := story_append_of_forall_ne (h := h) hb
  cases hf with
  | yielded a hstory => exact .yielded a (hsame.trans hstory)
  | recovered p hstory => exact .recovered p (hsame.trans hstory)
  | broken p q pre post htells hstory hraised htold haround =>
    exact .broken p q pre (post ++ b) htells (hsame.trans hstory) (by simp [hraised]) htold haround

namespace Frame

/--
The guards of a stack that are up, the innermost one first.
-/
def guards (stack : List (Frame α)) : List Scope := stack.filterMap guarding?

/--
What has happened so far to the scope of a frame.
-/
def Begun (h : List (Mark α)) : Frame α → Prop
  | body s _ _ => story s h = [.entered s]
  | callback s _ => ∃ p, story s h = .entered s :: s.reaction p

/--
Whether a stack is what the marks so far make of it: each scope was entered once, inside of those
below.
-/
def Stands (h : List (Mark α)) : List (Frame α) → Prop
  | [] => True
  | f :: rest => f.Begun h ∧ f.scope ∉ rest.map scope ∧ around f.scope h = (guards rest).reverse ∧
      Stands h rest

variable {f : Frame α} {above rest stack : List (Frame α)}

theorem Begun.entered (hf : f.Begun h) : .entered f.scope ∈ h := by
  refine mem_of_mem_story (s := f.scope) ?_
  cases f with
  | body s callback next => rw [scope, hf]; exact List.mem_singleton_self _
  | callback s next =>
    obtain ⟨p, hp⟩ := hf
    rw [scope, hp]
    exact List.mem_cons_self ..

theorem Begun.append (hf : f.Begun h) (hb : ∀ m ∈ b, m.scope? ≠ some f.scope) :
    f.Begun (h ++ b) := by
  have hsame := story_append_of_forall_ne (h := h) hb
  cases f with
  | body s callback next => exact hsame.trans hf
  | callback s next =>
    obtain ⟨p, hp⟩ := hf
    exact ⟨p, hsame.trans hp⟩

theorem Stands.append (hs : Stands h stack)
    (hb : ∀ m ∈ b, ∀ f ∈ stack, m.scope? ≠ some f.scope) : Stands (h ++ b) stack := by
  induction stack with
  | nil => trivial
  | cons f rest ih =>
    obtain ⟨hbegun, hnew, haround, hrest⟩ := hs
    refine ⟨hbegun.append fun m hm => hb m hm f (List.mem_cons_self ..), hnew, ?_,
      ih hrest fun m hm f hf => hb m hm f (List.mem_cons_of_mem _ hf)⟩
    rw [around_append hbegun.entered, haround]

theorem guards_append (habove : ∀ f ∈ above, f.guarding? = none) (rest : List (Frame α)) :
    guards (above ++ rest) = guards rest := by
  rw [guards, List.filterMap_append, List.filterMap_eq_nil_iff.2 habove]
  rfl

/--
Callbacks on top of a stack are all inside the same guards.
-/
theorem Stands.under_callbacks (habove : ∀ f ∈ above, f.guarding? = none)
    (hs : Stands h (above ++ rest)) :
    Stands h rest ∧ ∀ f ∈ above, f.Begun h ∧ f.scope ∉ rest.map scope ∧
      around f.scope h = (guards rest).reverse := by
  induction above with
  | nil => exact ⟨hs, by simp⟩
  | cons g above ih =>
    rw [List.cons_append] at hs
    obtain ⟨hbegun, hnew, haround, hrest⟩ := hs
    have habove' := fun f hf => habove f (List.mem_cons_of_mem g hf)
    obtain ⟨hstands, hall⟩ := ih habove' hrest
    refine ⟨hstands, List.forall_mem_cons.2 ⟨⟨hbegun, ?_, ?_⟩, hall⟩⟩
    . rw [List.map_append] at hnew
      exact fun hmem => hnew (List.mem_append_right _ hmem)
    . rw [haround, guards_append habove']

/--
Unwinding takes away the callbacks on top.
-/
theorem exists_unwind (stack : List (Frame α)) : ∃ above : List (Frame α),
    (∀ f ∈ above, f.guarding? = none) ∧ stack = above ++ unwind stack ∧
      (unwind stack = [] ∨
        ∃ s callback next rest, unwind stack = body s callback next :: rest) := by
  induction stack with
  | nil => exact ⟨[], by simp, rfl, .inl rfl⟩
  | cons f rest ih =>
    cases f with
    | body s callback next => exact ⟨[], by simp, rfl, .inr ⟨s, callback, next, rest, rfl⟩⟩
    | callback s next =>
      obtain ⟨above, habove, hrest, hend⟩ := ih
      refine ⟨callback s next :: above, List.forall_mem_cons.2 ⟨rfl, habove⟩, ?_, hend⟩
      exact congrArg (callback s next :: ·) hrest

theorem mem_scopes_of_mem_guards (hs : s ∈ guards stack) : s ∈ stack.map scope := by
  obtain ⟨f, hf, hguard⟩ := List.mem_filterMap.1 hs
  refine List.mem_map.2 ⟨f, hf, ?_⟩
  cases f with
  | body s' callback next => exact Option.some.inj hguard
  | callback s' next => cases hguard

/--
With its innermost scope a stack loses that guard at most.
-/
theorem filter_guards (hnew : f.scope ∉ rest.map scope) :
    (guards (f :: rest)).reverse.filter (· ≠ f.scope) = (guards rest).reverse := by
  have hrest : (guards rest).reverse.filter (· ≠ f.scope) = (guards rest).reverse := by
    refine List.filter_eq_self.2 fun s hs => decide_eq_true fun heq => hnew ?_
    exact heq ▸ mem_scopes_of_mem_guards (List.mem_reverse.1 hs)
  cases f with
  | callback s next => exact hrest
  | body s callback next =>
    have hguards : guards (body s callback next :: rest) = s :: guards rest := rfl
    rw [hguards, List.reverse_cons, List.filter_append, hrest]
    simp [scope]

end Frame

/--
What the marks so far tell of code that is executed on a stack.
-/
structure Sound (h : List (Mark α)) (stack : List (Frame α)) (n : Nat) : Prop where
  numbered : ∀ m ∈ h, ∀ s, m.scope? = some s → s.serial < n
  stands : Frame.Stands h stack
  opened : openScopes h = (Frame.guards stack).reverse
  settled : ∀ m ∈ h, ∀ s, m.scope? = some s → s ∈ stack.map Frame.scope ∨ Fate h s
  fits : ∀ pre m post, h = pre ++ m :: post → m.Fits pre

namespace Sound

variable {f : Frame α} {rest stack stack' : List (Frame α)} {n n' : Nat}

theorem nil : Sound ([] : List (Mark α)) [] 0 where
  numbered := by simp
  stands := trivial
  opened := rfl
  settled := by simp
  fits := by simp

theorem entered (hs : Sound h stack n) (hmem : s ∈ stack.map Frame.scope) : .entered s ∈ h := by
  have hstands := hs.stands
  obtain ⟨f, hf, rfl⟩ := List.mem_map.1 hmem
  clear hs hmem
  induction stack with
  | nil => cases hf
  | cons g rest ih =>
    rcases List.mem_cons.1 hf with rfl | hf
    . exact hstands.1.entered
    . exact ih hstands.2.2.2 hf

theorem serial_lt (hs : Sound h stack n) (hmem : s ∈ stack.map Frame.scope) : s.serial < n :=
  hs.numbered _ (hs.entered hmem) s rfl

/--
More marks are sound if they are about the scopes on the stack, those that leave the stack have
their fates, and the new marks fit the old ones.
-/
theorem append (hs : Sound h stack n) (hle : n ≤ n')
    (hscopes : ∀ m ∈ b, ∀ s, m.scope? = some s →
      (s ∈ stack.map Frame.scope ∨ s ∈ stack'.map Frame.scope) ∧ s.serial < n')
    (hstands : Frame.Stands (h ++ b) stack')
    (hopened : openScopes (h ++ b) = (Frame.guards stack').reverse)
    (hsettled : ∀ s ∈ stack.map Frame.scope, s ∉ stack'.map Frame.scope → Fate (h ++ b) s)
    (hfits : ∀ b' m post, b = b' ++ m :: post → m.Fits (h ++ b')) : Sound (h ++ b) stack' n' where
  numbered := by
    intro m hm s hs'
    rcases List.mem_append.1 hm with hm | hm
    . exact Nat.lt_of_lt_of_le (hs.numbered m hm s hs') hle
    . exact (hscopes m hm s hs').2
  stands := hstands
  opened := hopened
  settled := by
    intro m hm s hs'
    by_cases hnew : s ∈ stack'.map Frame.scope
    . exact .inl hnew
    by_cases hold : s ∈ stack.map Frame.scope
    . exact .inr (hsettled s hold hnew)
    have hother : ∀ m ∈ b, m.scope? ≠ some s := by
      intro m hm heq
      rcases (hscopes m hm s heq).1 with hmem | hmem
      . exact hold hmem
      . exact hnew hmem
    rcases List.mem_append.1 hm with hm | hm
    . exact .inr (((hs.settled m hm s hs').resolve_left hold).append hother)
    . exact absurd hs' (hother m hm)
  fits := by
    intro pre m post hsplit
    rcases split_of_append hsplit with ⟨t, -, hold⟩ | ⟨b', rfl, hnew⟩
    . exact hs.fits pre m t hold
    . exact hfits b' m post hnew

theorem concat (hs : Sound h stack n) (hle : n ≤ n')
    (hscopes : ∀ s, m.scope? = some s →
      (s ∈ stack.map Frame.scope ∨ s ∈ stack'.map Frame.scope) ∧ s.serial < n')
    (hstands : Frame.Stands (h ++ [m]) stack')
    (hopened : m.shift (openScopes h) = (Frame.guards stack').reverse)
    (hsettled : ∀ s ∈ stack.map Frame.scope, s ∉ stack'.map Frame.scope → Fate (h ++ [m]) s)
    (hfits : m.Fits h) : Sound (h ++ [m]) stack' n' := by
  refine hs.append hle ?_ hstands (by rw [openScopes_append]; exact hopened) hsettled ?_
  . exact fun m' hm' => List.mem_singleton.1 hm' ▸ hscopes
  . intro b' m' post heq
    cases b' with
    | nil => rwa [List.append_nil, ← (List.cons.inj heq).1]
    | cons _ b' => simp at heq

/--
A mark that is about no scope changes nothing.
-/
theorem aside (hs : Sound h stack n) (hscope : m.scope? = none) : Sound (h ++ [m]) stack n := by
  have hother : ∀ s, m.scope? ≠ some s := by simp [hscope]
  refine hs.concat (Nat.le_refl n) (fun s hs' => absurd hs' (hother s))
    (hs.stands.append fun m' hm' f _ => List.mem_singleton.1 hm' ▸ hother f.scope) ?_
    (fun s hold hnew => absurd hold hnew) ?_
  . rw [← hs.opened]
    cases m with
    | noted | gave | raised => rfl
    | _ => cases hscope
  . cases m with
    | noted | gave | raised => trivial
    | _ => cases hscope

/--
A scope is entered inside of those on the stack.
-/
theorem enter (hs : Sound h stack n) (g : Guard) (callback : Report → Code α)
    (next : Option α → Code α) :
    Sound (h ++ [.entered ⟨n, g⟩]) (.body ⟨n, g⟩ callback next :: stack) (n + 1) := by
  have hfresh : ∀ m ∈ h, m.scope? ≠ some ⟨n, g⟩ :=
    fun m hm heq => Nat.lt_irrefl n (hs.numbered m hm _ heq)
  have hnew : (⟨n, g⟩ : Scope) ∉ stack.map Frame.scope :=
    fun hmem => Nat.lt_irrefl n (hs.serial_lt hmem)
  refine hs.concat (Nat.le_succ n) ?_ ⟨?_, hnew, ?_, hs.stands.append ?_⟩ ?_ ?_ hfresh
  . rintro s ⟨⟩
    exact ⟨.inr (List.mem_cons_self ..), Nat.lt_succ_self n⟩
  . have hempty : story ⟨n, g⟩ h = [] := story_of_forall_ne hfresh
    rw [Frame.Begun, story_append, hempty]
    simp [story, Mark.scope?]
  . exact (around_entered hfresh).trans hs.opened
  . intro m hm f hf heq
    cases List.mem_singleton.1 hm
    exact hnew (Option.some.inj heq ▸ List.mem_map_of_mem hf)
  . rw [hs.opened, Mark.shift]
    exact (List.reverse_cons ..).symm
  . intro s hold hnew
    exact absurd (List.mem_cons_of_mem _ hold) hnew

/--
The innermost scope is left. Those around it have not changed.
-/
theorem leave (hs : Sound h (f :: rest) n) {v : Option α} (hfits : Mark.Fits h (.left f.scope v))
    (hfate : Fate (h ++ [.left f.scope v]) f.scope) : Sound (h ++ [.left f.scope v]) rest n := by
  obtain ⟨-, hnew, -, hrest⟩ := hs.stands
  have hmem : f.scope ∈ (f :: rest).map Frame.scope := List.mem_cons_self ..
  refine hs.concat (Nat.le_refl n) ?_ (hrest.append ?_) ?_ ?_ hfits
  . rintro s ⟨⟩
    exact ⟨.inl hmem, hs.serial_lt hmem⟩
  . intro m hm f' hf' heq
    cases List.mem_singleton.1 hm
    exact hnew (Option.some.inj heq ▸ List.mem_map_of_mem hf')
  . rw [hs.opened]
    exact Frame.filter_guards hnew
  . intro s hold hgone
    rcases List.mem_cons.1 hold with rfl | hold
    . exact hfate
    . exact absurd hold hgone

theorem leave_body {callback : Report → Code α} {next : Option α → Code α}
    (hs : Sound h (.body s callback next :: rest) n) (a : α) :
    Sound (h ++ [.gave a, .left s (some a)]) rest n := by
  have hgave := hs.aside (m := .gave a) rfl
  obtain ⟨hbegun, -, haround, -⟩ := hs.stands
  rw [List.append_cons]
  refine hgave.leave (f := .body s callback next) ⟨h, rfl, ?_⟩ (.yielded a ?_)
  . rw [hs.opened]
    exact (List.reverse_cons ..).trans (congrArg (· ++ [s]) haround.symm)
  . have hbegan : story s (h ++ [.gave a]) = [.entered s] := hgave.stands.1
    rw [story_append, Frame.scope, hbegan]
    simp [story, Mark.scope?]

theorem leave_callback {next : Option α → Code α} (hs : Sound h (.callback s next :: rest) n) :
    Sound (h ++ [.left s none]) rest n := by
  obtain ⟨⟨p, hp⟩, -, haround, -⟩ := hs.stands
  refine hs.leave (f := .callback s next) (hs.opened.trans haround.symm) (.recovered p ?_)
  rw [story_append, Frame.scope, hp]
  simp [story, Mark.scope?]

section

variable {above : List (Frame α)} (habove : ∀ f ∈ above, f.guarding? = none)
  (htelling : ∀ f ∈ above, f.scope.guard.tells = true)

include habove htelling

/--
A panic breaks the scopes that are running their callbacks on top of the stack.
-/
theorem broken (hs : Sound h (above ++ rest) n) (q : Payload)
    (hb : ∀ m ∈ b, ∀ f ∈ above, m.scope? ≠ some f.scope) (hf : f ∈ above) :
    Fate (h ++ .raised q :: b) f.scope := by
  obtain ⟨-, hall⟩ := hs.stands.under_callbacks habove
  obtain ⟨hbegun, -, haround⟩ := hall f hf
  have hnone := habove f hf
  cases f with
  | body s callback next => cases hnone
  | callback s next =>
    obtain ⟨p, hp⟩ := hbegun
    have htells : s.guard.tells = true := htelling _ hf
    refine .broken p q h b htells ?_ rfl (mem_of_mem_story (s := s) ?_) ?_
    . refine (story_append_of_forall_ne ?_).trans hp
      exact List.forall_mem_cons.2 ⟨by simp [Mark.scope?], fun m hm => hb m hm _ hf⟩
    . rw [hp]
      exact List.mem_cons_of_mem _ (told_mem_reaction htells p)
    . rw [hs.opened, Frame.guards_append habove]
      exact haround.symm

/--
A panic that nobody takes care of.
-/
theorem escape (hs : Sound h above n) (p : Payload) : Sound (h ++ [.raised p]) [] n := by
  refine hs.concat (Nat.le_refl n) (by simp [Mark.scope?]) trivial ?_ ?_ trivial
  . have hnone := Frame.guards_append habove []
    rw [List.append_nil] at hnone
    rw [hs.opened, hnone]
    rfl
  . intro s hold _
    obtain ⟨f, hf, rfl⟩ := List.mem_map.1 hold
    rw [← List.append_nil above] at hs
    exact hs.broken habove htelling p (by simp) hf

/--
The innermost scope takes care of a panic.
-/
theorem catches {callback : Report → Code α} {next : Option α → Code α}
    (hs : Sound h (above ++ .body s callback next :: rest) n) (p : Payload) :
    Sound (h ++ .raised p :: s.reaction p) (.callback s next :: rest) n := by
  obtain ⟨⟨hbegun, hnew, haround, hrest⟩, hall⟩ := hs.stands.under_callbacks habove
  have hguards : openScopes h = around s h ++ [s] := by
    rw [hs.opened, Frame.guards_append habove]
    exact (List.reverse_cons ..).trans (congrArg (· ++ [s]) haround.symm)
  have honly : ∀ m ∈ (.raised p :: s.reaction p : List (Mark α)),
      ∀ t, m.scope? = some t → t = s := by
    refine List.forall_mem_cons.2 ⟨by simp [Mark.scope?], fun m hm t ht => ?_⟩
    exact Option.some.inj (ht.symm.trans (scope?_of_mem_reaction hm))
  have hmem : s ∈ (above ++ .body s callback next :: rest).map Frame.scope := by simp [Frame.scope]
  refine hs.append (Nat.le_refl n) ?_ ⟨⟨p, ?_⟩, hnew, ?_, hrest.append ?_⟩ ?_ ?_ ?_
  . intro m hm t ht
    rw [honly m hm t ht]
    exact ⟨.inl hmem, hs.serial_lt hmem⟩
  . have hreaction : story s (s.reaction p : List (Mark α)) = s.reaction p :=
      story_of_forall_eq fun m hm => scope?_of_mem_reaction hm
    have hbegan : story s h = [.entered s] := hbegun
    rw [story_append, hbegan, List.singleton_append, List.cons.injEq]
    exact ⟨rfl, hreaction⟩
  . exact (around_append (hs.entered hmem) _).trans haround
  . intro m hm f hf heq
    have hscope : f.scope = s := honly m hm _ heq
    have hrest : f.scope ∈ rest.map Frame.scope := List.mem_map_of_mem hf
    rw [hscope] at hrest
    exact hnew hrest
  . rw [openScopes_append, foldl_shift_reaction, hs.opened, Frame.guards_append habove]
    exact Frame.filter_guards hnew
  . intro t hold hgone
    rw [List.map_append, List.mem_append] at hold
    obtain ⟨f, hf, rfl⟩ := List.mem_map.1 (hold.resolve_right hgone)
    refine hs.broken habove htelling p (fun m hm f' hf' heq => ?_) hf
    obtain ⟨-, hother, -⟩ := hall f' hf'
    have hscope : f'.scope = s := honly m (List.mem_cons_of_mem _ hm) _ heq
    exact hother (hscope ▸ List.mem_cons_self ..)
  -- The panic always fits, the catching because of `hguards`, the rest of the reaction always.
  . rintro (_ | ⟨x, _ | ⟨y, b'⟩⟩) m post hsplit
    . rw [← (List.cons.inj hsplit).1]
      trivial
    . obtain ⟨rfl, hfirst⟩ := List.cons.inj hsplit
      rw [← (List.cons.inj hfirst).1]
      exact ⟨h, p, rfl, rfl, hguards⟩
    . obtain ⟨-, hlater⟩ := List.cons.inj hsplit
      refine fits_of_mem_tail_reaction (s := s) (p := p) ?_ _
      rw [hlater]
      simp

end

end Sound

/--
Whether each panic so far was taken care of by the innermost scope.
-/
def Handled (h : List (Mark α)) : Prop :=
  ∀ pre p post, h = pre ++ .raised p :: post →
    ∃ s, innermost? pre = some s ∧ s.reaction p <+: post

namespace Handled

theorem append (hh : Handled h) (hb : ∀ p, .raised p ∉ b) : Handled (h ++ b) := by
  intro pre p post hsplit
  rcases split_of_append hsplit with ⟨t, rfl, hold⟩ | ⟨b', -, hnew⟩
  . obtain ⟨s, hinner, hreaction⟩ := hh pre p t hold
    exact ⟨s, hinner, hreaction.trans (List.prefix_append ..)⟩
  . exact absurd (hnew ▸ List.mem_append_right _ (List.mem_cons_self ..)) (hb p)

theorem catches (hh : Handled h) (hinner : innermost? h = some s) (p : Payload) :
    Handled (h ++ .raised p :: s.reaction p) := by
  intro pre q post hsplit
  rcases split_of_append hsplit with ⟨t, rfl, hold⟩ | ⟨_ | ⟨m, b'⟩, rfl, hnew⟩
  . obtain ⟨s', hinner', hreaction⟩ := hh pre q t hold
    exact ⟨s', hinner', hreaction.trans (List.prefix_append ..)⟩
  . obtain ⟨hpanic, rfl⟩ := List.cons.inj hnew
    cases hpanic
    rw [List.append_nil]
    exact ⟨s, hinner, List.prefix_refl _⟩
  . have hmem : .raised q ∈ (s.reaction p : List (Mark α)) := by
      rw [(List.cons.inj hnew).2]
      simp
    cases scope?_of_mem_reaction hmem

end Handled

end

namespace Execution

variable {α : Type u} {h : List (Mark α)} {a : α} {p : Payload} {s : Scope} {n : Nat}
  {stack : List (Frame α)} {callback : Report → Code α} {next : Option α → Code α}

/--
Whether each callback on a stack is one that had to be told something.
-/
def Telling (stack : List (Frame α)) : Prop :=
  ∀ f ∈ stack, f.guarding? = none → f.scope.guard.tells = true

/--
What the marks so far tell of an execution.
-/
def Told (h : List (Mark α)) : Execution α → Prop
  | .running _ stack n => Sound h stack n ∧ Handled h ∧ Telling stack
  | .done r => Orderly h r

theorem told_value (hx : (running (.value a) stack n).Told h) :
    (running (.value a) stack n).step.1.Told (h ++ (running (.value a) stack n).step.2) := by
  obtain ⟨hsound, hhandled, htelling⟩ := hx
  have hgave := hsound.aside (m := .gave a) rfl
  match stack with
  | [] =>
    have hmarks : Handled (h ++ [.gave a]) := hhandled.append (by simp)
    exact ⟨hgave.fits, fun m hm s hs => (hgave.settled m hm s hs).resolve_left (by simp),
      fun pre p post hsplit => .inl (hmarks pre p post hsplit),
      h, hsound.opened, .inl ⟨a, rfl, rfl⟩⟩
  | .body s _ next :: rest =>
    have hmarks : Handled (h ++ [.gave a, .left s (some a)]) := hhandled.append (by simp)
    exact ⟨hsound.leave_body a, hmarks, fun f hf => htelling f (List.mem_cons_of_mem _ hf)⟩
  | .callback s next :: rest =>
    have hmarks : Handled (h ++ [.gave a, .left s none]) := hhandled.append (by simp)
    have hleft := hgave.leave_callback
    rw [List.append_assoc] at hleft
    exact ⟨hleft, hmarks, fun f hf => htelling f (List.mem_cons_of_mem _ hf)⟩

theorem told_escape {above : List (Frame α)} (habove : ∀ f ∈ above, f.guarding? = none)
    (hx : (running (.panic p) above n).Told h) : Orderly (h ++ [.raised p]) (.error p) := by
  obtain ⟨hsound, hhandled, htelling⟩ := hx
  have hescape := hsound.escape habove (fun f hf => htelling f hf (habove f hf)) p
  have hopened : openScopes h = [] := by
    have hnone := Frame.guards_append habove []
    rw [List.append_nil] at hnone
    rw [hsound.opened, hnone]
    rfl
  refine ⟨hescape.fits, fun m hm s hs => (hescape.settled m hm s hs).resolve_left (by simp), ?_,
    h, hopened, .inr ⟨p, rfl, rfl⟩⟩
  intro pre q post hsplit
  rcases split_of_concat hsplit with ⟨rfl, hpanic, rfl⟩ | ⟨t, rfl, hold⟩
  . cases hpanic
    exact .inr ⟨hopened, rfl, rfl⟩
  . obtain ⟨s, hinner, hreaction⟩ := hhandled pre q t hold
    exact .inl ⟨s, hinner, hreaction.trans (List.prefix_append ..)⟩

theorem told_catches {above rest : List (Frame α)} (habove : ∀ f ∈ above, f.guarding? = none)
    (hx : (running (.panic p) (above ++ .body s callback next :: rest) n).Told h) :
    Sound (h ++ .raised p :: s.reaction p) (.callback s next :: rest) n ∧
      Handled (h ++ .raised p :: s.reaction p) ∧ Telling rest := by
  obtain ⟨hsound, hhandled, htelling⟩ := hx
  have htold := fun f hf => htelling f (List.mem_append_left _ hf) (habove f hf)
  have hinner : innermost? h = some s := by
    rw [innermost?, hsound.opened, Frame.guards_append habove, List.getLast?_reverse]
    rfl
  refine ⟨hsound.catches habove htold p, hhandled.catches hinner p, fun f hf => htelling f ?_⟩
  exact List.mem_append_right _ (List.mem_cons_of_mem _ hf)

/--
What a step does is in order.
-/
theorem told_step (x : Execution α) (hx : x.Told h) : x.step.1.Told (h ++ x.step.2) := by
  match x with
  | .done r => rwa [step, List.append_nil]
  | .running (.value a) stack n => exact told_value hx
  | .running (.note m next) stack n =>
    obtain ⟨hsound, hhandled, htelling⟩ := hx
    have hmarks : Handled (h ++ [.noted m]) := hhandled.append (by simp)
    exact ⟨hsound.aside rfl, hmarks, htelling⟩
  | .running (.scope g callback body next) stack n =>
    obtain ⟨hsound, hhandled, htelling⟩ := hx
    have hmarks : Handled (h ++ [.entered ⟨n, g⟩]) := hhandled.append (by simp)
    exact ⟨hsound.enter g callback next, hmarks,
      List.forall_mem_cons.2 ⟨by simp [Frame.guarding?], htelling⟩⟩
  | .running (.panic p) stack n =>
    obtain ⟨above, habove, hstack, hnone | ⟨s, callback, next, rest, hbody⟩⟩ :=
      Frame.exists_unwind stack
    -- Only callbacks are left on the stack, or else the first guard below them catches the panic.
    . rw [hnone, List.append_nil] at hstack
      subst hstack
      have hescape := told_escape habove hx
      rwa [step, hnone]
    . rw [hbody] at hstack
      subst hstack
      obtain ⟨hsound, hhandled, htelling⟩ := told_catches habove hx
      rw [step_panic habove]
      cases htells : s.guard.tells with
      | true =>
        rw [if_pos rfl]
        exact ⟨hsound, hhandled, List.forall_mem_cons.2 ⟨fun _ => htells, htelling⟩⟩
      | false =>
        have hleft := hsound.leave_callback
        have hmarks : Handled (h ++ .raised p :: s.reaction p ++ [.left s none]) :=
          hhandled.append (by simp)
        rw [List.append_assoc] at hleft hmarks
        rw [if_neg Bool.false_ne_true]
        exact ⟨hleft, hmarks, htelling⟩

theorem told_run (k : Nat) (x : Execution α) (hx : x.Told h) :
    (x.run k).1.Told (h ++ (x.run k).2) := by
  induction k generalizing x h with
  | zero => rwa [run, List.append_nil]
  | succ k ih =>
    have hrest := ih x.step.1 (told_step x hx)
    rwa [List.append_assoc] at hrest

/--
Code is executed to its end with all its scopes in order, and comes to what its attempt comes to.
-/
theorem orderly (c : Code α) : ∃ h, Leads (start c) h (.done c.attempt.result) ∧
    h.flatMap Mark.notes = c.attempt.notes ∧ Orderly h c.attempt.result := by
  obtain ⟨h, ⟨k, hk⟩, hnotes⟩ := leads_done c
  have htold := told_run k (start c) (h := []) ⟨.nil, by simp [Handled], by simp [Telling]⟩
  rw [hk] at htold
  exact ⟨h, ⟨k, hk⟩, hnotes, htold⟩

end Execution

end Upkeep.Task
