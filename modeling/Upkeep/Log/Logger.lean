import Upkeep.Failure.Basic
import Upkeep.Log.Line
import Upkeep.Log.Settings
import Upkeep.Log.Transcript

/-!
This module contains logs whose level can be switched while they run. The directives of the settings
stay in force under every level. All handles of a log share its level.
-/

namespace Upkeep.Log

/--
What can go wrong with a log. A directive that would have to be cut inside a character is an error
of its own.
-/
inductive LogError where
  | alreadyInstalled
  | unknownLevel (raw : String)
  | directive (raw : String)
  | split (x : Text.Split)
  | reload
  | setGlobal
  deriving DecidableEq, Inhabited

namespace LogError

def message : LogError → String
  | alreadyInstalled => "a subscriber has already been installed by spark-kit-log"
  | unknownLevel raw => "unknown log level '" ++ raw ++ "'"
  | directive raw => "invalid filter directive '" ++ raw ++ "'"
  | split x => x.message
  | reload => "reload log filter failed"
  | setGlobal => "set global subscriber failed"

def toFailure (e : LogError) : Failure := .plain e.message

end LogError

/--
A log. `filter` is missing once nobody listens any more.
-/
structure Logger where
  layout : Layout
  directives : List Directive
  level : Severity
  filter : Option Filter
  deriving Inhabited

/--
Reads directives. The first that cannot be read is reported.
-/
def readDirectives : List String → Except LogError (List Directive)
  | [] => .ok []
  | raw :: rest =>
    match Directive.ofText raw with
    | .error .malformed => .error (.directive raw)
    | .error (.split x) => .error (.split x)
    | .ok d => (readDirectives rest).map (d :: ·)

namespace Logger

def build (s : Settings) : Except LogError Logger :=
  match level? s.level with
  | none => .error (.unknownLevel s.level)
  | some level =>
    (readDirectives s.directives).map fun directives =>
      { layout := ⟨s.ansi, s.withTarget⟩, directives, level
        filter := some (Filter.compose level directives) }

/--
Writes an event, if the filter lets it through. The result is what is read of it.
-/
def emit (l : Logger) (e : Entry) : List String :=
  match l.filter with
  | some f =>
    if f.enables e.target e.level e.names then Transcript.ofWritten (l.layout.line e) else []
  | none => []

/--
The name under which the log itself reports.
-/
def ownTarget : String := "spark_kit_log"

/--
The event for a level that was switched.
-/
def switched (old new : Severity) : Entry :=
  { level := .info
    target := ownTarget
    message := "log level changed"
    fields := [("from", (Verbosity.ofSeverity old).name), ("to", (Verbosity.ofSeverity new).name)] }

/--
What is reported of a level that was switched. If it is the same as before, there is nothing to say.
-/
def reported (old new : Severity) : List Entry := if old = new then [] else [switched old new]

/--
Switches the level. The log reports the change itself, under the new level.
-/
def setLevel (l : Logger) (raw : String) : Except LogError Severity × Logger × List String :=
  match level? raw with
  | none => (.error (.unknownLevel raw), l, [])
  | some level =>
    match l.filter with
    | none => (.error .reload, l, [])
    | some _ =>
      let next := { l with level, filter := some (Filter.compose level l.directives) }
      (.ok level, next, (reported l.level level).flatMap next.emit)

/--
Nobody listens any more.
-/
def drop (l : Logger) : Logger := { l with filter := none }

def inspect (l : Logger) : String :=
  Text.inspect "LogHandle"
    [("level", (Verbosity.ofSeverity l.level).inspect),
     ("directives", Text.inspectList (l.directives.map Directive.inspect))]

end Logger

/--
Who listens to the events of a process: nobody, somebody else, or a log of this library.
-/
inductive Listener where
  | nobody
  | other
  | log (l : Logger)
  deriving Inhabited

namespace Listener

/--
The most verbose level at which events of a target are heard. Somebody else hears everything.
-/
def verbosity (target : String) : Listener → Verbosity
  | nobody => .off
  | other => .trace
  | log l => (l.filter.map (·.verbosity target)).getD .off

/--
An event for whoever listens. The result is what is read of it.
-/
def emit (e : Entry) : Listener → List String
  | log l => l.emit e
  | _ => []

end Listener

/--
The process-wide place for a log. It can be taken once.
-/
structure Installation where
  installed : Bool
  listener : Listener
  deriving Inhabited

namespace Installation

def start : Installation := ⟨false, .nobody⟩

def log? (p : Installation) : Option Logger :=
  match p.listener with
  | .log l => some l
  | _ => none

/--
Installs the log of settings. A failure leaves everything as it was.
-/
def install (p : Installation) (s : Settings) : Except LogError Severity × Installation :=
  match Logger.build s with
  | .error e => (.error e, p)
  | .ok l =>
    if p.installed then
      (.error .alreadyInstalled, p)
    else
      match p.listener with
      | .nobody => (.ok l.level, ⟨true, .log l⟩)
      | _ => (.error .setGlobal, p)

/--
Somebody else takes the place, if it is free.
-/
def installOther (p : Installation) : Bool × Installation :=
  match p.listener with
  | .nobody => (true, { p with listener := .other })
  | _ => (false, p)

end Installation

end Upkeep.Log
