import Upkeep.Log.Filter

/-!
This module contains what a filter makes of the events that no directive singles out. The directive
that was added last of those for everything decides; if there is none, the level of the log does.
-/

namespace Upkeep.Log

/--
The scope of all events.
-/
def Scope.everything : Scope := ⟨none, []⟩

namespace Directive

/--
Whether a directive is about everything: it names no target, no span and no field.
-/
def isBare (d : Directive) : Bool := d.target.isNone && d.span.isNone && d.fields.isEmpty

/--
Whether a directive speaks of an event of a target with some fields, or of one of the spans around
it, of which a test tells.
-/
def speaks (d : Directive) (around : Selector → Bool) (target : String) (fields : List String) :
    Bool :=
  if d.isStatic then d.scope.covers target && d.scope.fields.all fields.contains
  else around d.selector

variable {d : Directive}

theorem isBare_iff : d.isBare = true ↔ d.isStatic = true ∧ d.scope = .everything := by
  obtain ⟨target, span, fields, level⟩ := d
  cases target <;> cases span <;> cases fields <;>
    simp [isBare, isStatic, scope, Scope.everything]

theorem isBare_of_isStatic (hstatic : d.isStatic = false) : d.isBare = false := by
  refine Bool.eq_false_iff.2 fun h => ?_
  rw [(isBare_iff.1 h).1] at hstatic
  cases hstatic

end Directive

namespace Filter

variable {f : Filter} {ds : List Directive} {d : Directive}

theorem mem_keys_add {k : Scope} (hk : k ∈ (f.add d).levels.keys) :
    k ∈ f.levels.keys ∨ d.isStatic = true ∧ d.scope = k := by
  rw [add] at hk
  split at hk
  . next hstatic =>
    exact ((Dict.mem_keys_insert ..).1 hk).imp_right fun heq => ⟨hstatic, heq.symm⟩
  . exact .inl hk

theorem mem_spans_add {k : Selector} (hk : k ∈ (f.add d).spans.keys) :
    k ∈ f.spans.keys ∨ d.isStatic = false ∧ d.selector = k := by
  rw [add] at hk
  split at hk
  . exact .inl hk
  . next hstatic =>
    exact ((Dict.mem_keys_insert ..).1 hk).imp_right
      fun heq => ⟨Bool.eq_false_iff.2 hstatic, heq.symm⟩

/--
What is in a filter comes from its directives, if each of them adds no more than its own.
-/
theorem mem_foldl_add (view : Filter → List κ) (own : Directive → κ → Prop)
    (hadd : ∀ {f d k}, k ∈ view (f.add d) → k ∈ view f ∨ own d k) {k : κ}
    (hk : k ∈ view (ds.foldl add f)) : k ∈ view f ∨ ∃ d ∈ ds, own d k := by
  induction ds generalizing f with
  | nil => exact .inl hk
  | cons d ds ih =>
    rcases ih hk with hold | ⟨d', hd', hown⟩
    . exact (hadd hold).imp_right fun h => ⟨d, List.mem_cons_self .., h⟩
    . exact .inr ⟨d', List.mem_cons_of_mem _ hd', hown⟩

theorem mem_keys_compose {level : Severity} {k : Scope} (hk : k ∈ (compose level ds).levels.keys) :
    k = .everything ∨ ∃ d ∈ ds, d.isStatic = true ∧ d.scope = k := by
  have horigin := mem_foldl_add (fun f => f.levels.keys)
    (fun d k => d.isStatic = true ∧ d.scope = k) mem_keys_add hk
  refine horigin.imp_left fun hfirst => ?_
  rcases mem_keys_add hfirst with hempty | ⟨-, rfl⟩
  . cases hempty
  . rfl

theorem mem_spans_compose {level : Severity} {k : Selector}
    (hk : k ∈ (compose level ds).spans.keys) : ∃ d ∈ ds, d.isStatic = false ∧ d.selector = k := by
  have horigin := mem_foldl_add (fun f => f.spans.keys)
    (fun d k => d.isStatic = false ∧ d.selector = k) mem_spans_add hk
  exact horigin.resolve_left fun hfirst => by cases hfirst

theorem get?_everything_add :
    (f.add d).levels.get? .everything =
      if d.isBare then some d.level else f.levels.get? .everything := by
  cases hstatic : d.isStatic with
  | false =>
    rw [add, hstatic, Directive.isBare_of_isStatic hstatic, if_neg Bool.false_ne_true]
    rfl
  | true =>
    have hbare : d.isBare = true ↔ .everything = d.scope :=
      Directive.isBare_iff.trans ⟨fun h => h.2.symm, fun h => ⟨hstatic, h.symm⟩⟩
    rw [add, if_pos hstatic, Dict.get?_insert]
    simp only [hbare]

/--
Of the directives for everything the last one counts.
-/
theorem get?_everything_foldl :
    (ds.foldl add f).levels.get? .everything =
      (((ds.filter Directive.isBare).getLast?).map Directive.level).or
        (f.levels.get? .everything) := by
  induction ds generalizing f with
  | nil => rfl
  | cons d ds ih =>
    rw [List.foldl_cons, ih, get?_everything_add]
    cases hbare : d.isBare with
    | false => rw [List.filter_cons_of_neg (by simp [hbare]), if_neg Bool.false_ne_true]
    | true =>
      rw [List.filter_cons_of_pos hbare, List.getLast?_cons, if_pos rfl]
      cases (ds.filter Directive.isBare).getLast? <;> rfl

/--
If one scope alone speaks of an event, its level decides.
-/
theorem verbosityOf_of_only {speaks : Scope → Bool} {k : Scope} {v : Verbosity}
    (hk : f.levels.get? k = some v) (hspeaks : speaks k = true)
    (hothers : ∀ j ∈ f.levels.keys, j ≠ k → speaks j = false) : f.verbosityOf speaks = v := by
  rw [verbosityOf, deciding?, Dict.filter_entries_of_get? _ hk speaks hspeaks hothers]
  rfl

/--
What counts for the events that no directive singles out.
-/
def base (level : Severity) (ds : List Directive) : Verbosity :=
  (((ds.filter Directive.isBare).getLast?).map Directive.level).getD (Verbosity.ofSeverity level)

theorem base_of_forall (level : Severity) (hds : ∀ d ∈ ds, d.isBare = false) :
    base level ds = Verbosity.ofSeverity level := by
  have hnone : ds.filter Directive.isBare = [] := by
    simpa [List.filter_eq_nil_iff] using hds
  rw [base, hnone]
  rfl

/--
An event that no directive singles out, neither by itself nor by the spans around it, is let through
at the base level.
-/
theorem enablesInside_compose {around : Selector → Bool} {target : String} {fields : List String}
    (hevent : ∀ d ∈ ds, d.isBare = false → d.speaks around target fields = false)
    (level : Severity) (v : Verbosity) :
    (compose level ds).enablesInside around target v fields =
      decide (v.rank ≤ (base level ds).rank) := by
  have hbase : (compose level ds).levels.get? .everything = some (base level ds) := by
    have hbare : (Directive.everything (Verbosity.ofSeverity level)).isBare = true := rfl
    rw [compose, get?_everything_foldl, get?_everything_add, if_pos hbare, base]
    cases ((ds.filter Directive.isBare).getLast?).map Directive.level <;> rfl
  have hothers : ∀ k ∈ (compose level ds).levels.keys, k ≠ .everything →
      (k.covers target && k.fields.all fields.contains) = false := by
    intro k hk hne
    rcases mem_keys_compose hk with rfl | ⟨d, hd, hstatic, rfl⟩
    . exact absurd rfl hne
    . have hbare : d.isBare = false :=
        Bool.eq_false_iff.2 fun h => hne (Directive.isBare_iff.1 h).2
      have hsilent := hevent d hd hbare
      rwa [Directive.speaks, if_pos hstatic] at hsilent
  -- A span decides only through a directive of its own, and these are silent as well.
  have hspans : (compose level ds).spans.entries.any
      (fun e => around e.1 && decide (v.rank ≤ e.2.rank)) = false := by
    refine List.any_eq_false.2 fun e he => ?_
    obtain ⟨d, hd, hstatic, hselector⟩ := mem_spans_compose (List.mem_map_of_mem he)
    have hsilent := hevent d hd (Directive.isBare_of_isStatic hstatic)
    rw [Directive.speaks, hstatic, if_neg Bool.false_ne_true, hselector] at hsilent
    simp [hsilent]
  rw [enablesInside, hspans, Bool.false_or, enables,
    verbosityOf_of_only hbase (by simp [Scope.everything, Scope.covers]) hothers]

end Filter

end Upkeep.Log
