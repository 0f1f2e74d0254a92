import Upkeep.Dict
import Upkeep.Log.Directive

/-!
This module contains log filters: for each event, whether it is let through. A filter is made of
directives. Of the directives that speak of an event, the most specific one decides: the one with
the longest target, and of those the one with the most fields.
-/

namespace Upkeep.Log

/--
Which events a directive speaks of: those whose target starts with a text, if one is given, and that
have all of some fields.
-/
structure Scope where
  target : Option String
  fields : List String
  deriving DecidableEq, Inhabited

namespace Scope

/--
Whether a scope has the events of a target in it, their fields aside.
-/
def covers (p : Scope) (target : String) : Bool :=
  match p.target with
  | none => true
  | some t => t.toList.isPrefixOf target.toList

/--
The length of the target of a scope; one without target is the shortest.
-/
def weight (p : Scope) : Nat :=
  match p.target with
  | none => 0
  | some t => t.length + 1

/--
Whether one of two scopes that have an event in common comes before the other: it has the longer
target, more fields or, if neither, the fields that come later in the order of words.
-/
def precedes (p q : Scope) : Bool :=
  if p.weight ≠ q.weight then q.weight < p.weight
  else if p.fields.length ≠ q.fields.length then q.fields.length < p.fields.length
  else q.fields.lex p.fields

end Scope

/--
Which spans a directive speaks of: those of a target, of a name and with some fields.
-/
structure Selector where
  target : Option String
  span : Option String
  fields : List Field
  deriving DecidableEq, Inhabited

/--
The level of each scope for which one was given, and the level of what happens inside spans.
-/
structure Filter where
  levels : Dict Scope Verbosity
  spans : Dict Selector Verbosity
  deriving Inhabited

namespace Directive

/--
The events that a directive without a span speaks of.
-/
def scope (d : Directive) : Scope := ⟨d.target, d.fields.map Field.name⟩

/--
The spans that a directive with a span speaks of.
-/
def selector (d : Directive) : Selector := ⟨d.target, d.span, d.fields⟩

end Directive

namespace Filter

/--
Adds a directive. It takes the place of a directive that speaks of the same events or spans.
-/
def add (f : Filter) (d : Directive) : Filter :=
  if d.isStatic then { f with levels := f.levels.insert d.scope d.level }
  else { f with spans := f.spans.insert d.selector d.level }

/--
The filter of a level for everything and of further directives.
-/
def compose (level : Severity) (ds : List Directive) : Filter :=
  ds.foldl add
    ((⟨Dict.empty, Dict.empty⟩ : Filter).add (Directive.everything (Verbosity.ofSeverity level)))

/--
The most specific entry whose scope passes a test.
-/
def deciding? (f : Filter) (speaks : Scope → Bool) : Option (Scope × Verbosity) :=
  (f.levels.entries.filter fun e => speaks e.1).foldl (fun best e =>
    match best with
    | some b => if e.1.precedes b.1 then some e else some b
    | none => some e) none

/--
How much is let through of what a test picks.
-/
def verbosityOf (f : Filter) (speaks : Scope → Bool) : Verbosity :=
  match f.deciding? speaks with
  | some e => e.2
  | none => .off

/--
How much is let through of the events of a target, whatever their fields.
-/
def verbosity (f : Filter) (target : String) : Verbosity :=
  f.verbosityOf fun p => p.covers target

/--
Whether an event with some fields is let through, outside of spans.
-/
def enables (f : Filter) (target : String) (level : Verbosity) (fields : List String) : Bool :=
  level.rank ≤
    (f.verbosityOf fun p => p.covers target && p.fields.all fields.contains).rank

/--
Whether an event is let through that happens inside of spans. The directives that speak of one of
these, of which a test tells, can only let more through.
-/
def enablesInside (f : Filter) (around : Selector → Bool) (target : String) (level : Verbosity)
    (fields : List String) : Bool :=
  (f.spans.entries.any fun e => around e.1 && level.rank ≤ e.2.rank) ||
    f.enables target level fields

end Filter

end Upkeep.Log
