import Upkeep.Client.Buffer
import Upkeep.Metrics.Recorder
import Upkeep.Task.Alarms
import Upkeep.Task.Turns

/-!
This module contains scripts: steps that are done with a buffer one after the other. Steps may be
nested, in the sense that the constructor or the closer of a client does steps of its own before it
ends. Each step of a script is a series of actions of the buffer.
-/

namespace Upkeep.Client

open Config

/--
A step of a script. The steps `during` are for the next constructor that is run, those of `onClose`
for the closer of a client.
-/
inductive Step where
  | upsert (name : String) (target : Target)
  | remove (name : String)
  | reload (text : String)
  | get (name options : String) (during : Option (List Step))
  | getter (name options : String)
  | call (getter : Nat)
  | target (name : String)
  | size
  | pending
  | counters
  | inspect
  | onClose (id : Nat) (steps : List Step)
  | advance (time : Span)
  | drain
  | shutdown
  deriving Inhabited

mutual

/--
The number of steps in a step, itself included.
-/
def Step.weight : Step → Nat
  | .get _ _ (some steps) => 1 + weightOf steps
  | .onClose _ steps => 1 + weightOf steps
  | _ => 1

def weightOf : List Step → Nat
  | [] => 0
  | s :: ss => s.weight + weightOf ss

end

inductive Answer where
  | done
  | accepted
  | rejected (e : ConfigError)
  | removed (t : Option Target)
  | result (r : Result)
  | getter (g : Nat)
  | target (t : Option String)
  | size (n : Nat)
  | count (n : Nat)
  | counters (cs : List (String × Nat))
  | text (s : String)
  | time (t : Option Span)

/--
A connection is refused, or its constructor or closer fails or panics, if its target says so.
-/
def Connection.buildOutcome (c : Connection) : BuildOutcome :=
  if c.target.startsWith "refuse" then .refused (.plain ("connect to '" ++ c.target ++ "' refused"))
  else if c.target.startsWith "panicbuild" then
    .panicked (.text ("constructor bug " ++ toString c.id))
  else .built

def Connection.closeOutcome (c : Connection) : CloseOutcome :=
  if c.target.startsWith "failclose" then
    .failed (.plain ("close connection " ++ toString c.id ++ " failed"))
  else if c.target.startsWith "panicclose" then .panicked (.text ("driver bug " ++ toString c.id))
  else .closed

/--
A script that is being done. Metrics are recorded under a scope, if there is one. `nested` are the
answers of nested steps, and `limit` bounds the number of turns that tasks take in one step. Time
does not pass any more once the session is `down`. `turns` are the teardowns that wait for a turn,
`alarms` are set for those that sleep, and `isInside` says whether one of them has its turn.
-/
structure Session where
  buffer : Buffer
  scope : Metrics.Scope
  recorded : Bool
  during : List Step
  onClose : Dict Nat (List Step)
  getters : List (String × String)
  nested : List Answer
  events : List Event
  limit : Nat
  down : Bool
  turns : Task.Turns
  alarms : Task.Alarms
  isInside : Bool

namespace Session

/--
Lets something happen to the buffer. A teardown that it starts waits for its turn.
-/
def act (a : Action) (s : Session) : Session :=
  let i := s.buffer.teardowns.length
  let (buffer, events) := s.buffer.step a
  let s := { s with buffer, events := s.events ++ events }
  if (buffer.teardowns[i]?).any (·.phase = .ready) then
    { s with turns := s.turns.add s.isInside i }
  else
    s

/--
Does nested steps with `perform`.
-/
def nest (perform : Step → Session → Session × Answer) (steps : List Step) (s : Session) :
    Session :=
  steps.foldl (fun s step =>
    let (s, a) := perform step s
    { s with nested := s.nested ++ [a] }) s

def runDuring (inner : List Step → Session → Session) (s : Session) : Session :=
  inner s.during { s with during := [] }

def runOnClose (inner : List Step → Session → Session) (c : Connection) (s : Session) :
    Session :=
  inner ((s.onClose.get? c.id).getD []) { s with onClose := s.onClose.erase c.id }

/--
Asks for a client: all phases of a call, with the nested steps in their places.
-/
def get (inner : List Step → Session → Session) (name options : String) (s : Session) :
    Session × Answer :=
  let i := s.buffer.calls.length
  let s := ((s.act (.begin name options)).act (.proceed i)).act (.proceed i)
  let s : Session :=
    match s.buffer.calls[i]? with
    | some (.constructing _ _ client) =>
      let s := (runDuring inner s).act (.construct i client.buildOutcome)
      let s := (s.act (.proceed i)).act (.proceed i)
      match s.buffer.calls[i]? with
      | some (.closing _ _ previous) =>
        (runOnClose inner previous.client s).act (.closeNow i previous.client.closeOutcome)
      | _ => s
    | _ => s
  match s.buffer.calls[i]? with
  | some (.done r) => (s, .result r)
  | _ => (s, .done)

/--
Gives a teardown its turn, with the nested steps of its closer. One that goes to sleep sets its
alarm.
-/
def turn (inner : List Step → Session → Session) (i : Nat) (s : Session) : Session :=
  let s := s.act (.turn i)
  match s.buffer.teardowns[i]? with
  | some ⟨_, previous, _, .closing⟩ =>
    let s := runOnClose inner previous.client { s with isInside := true }
    { s with isInside := false }.act (.closeLater i previous.client.closeOutcome)
  | some ⟨_, _, _, .asleep due⟩ => { s with alarms := s.alarms ++ [⟨due, i⟩] }
  | _ => s

/--
Gives teardowns their turns until none waits for one.
-/
def settle (inner : List Step → Session → Session) (s : Session) : Session := go s.limit s
where
  go : Nat → Session → Session
    | 0, s => s
    | fuel + 1, s =>
      match s.turns.next with
      | (none, turns) => { s with turns }
      | (some i, turns) => go fuel (turn inner i { s with turns })

/--
Lets time pass up to a given time, and wakes the teardowns whose alarms have gone off by then.
-/
def passTo (t : Span) (s : Session) : Session :=
  let s := s.act (.pass ⟨t.nanos - s.buffer.clock.nanos⟩)
  let (woken, alarms) := s.alarms.ring s.buffer.clock
  { s with alarms, turns := woken.foldl (fun turns i => turns.add true i) s.turns }

/--
Lets a time pass. Teardowns that wake up on the way take their turns.
-/
def advance (inner : List Step → Session → Session) (time : Span) (s : Session) : Session :=
  let s := settle inner s
  if s.down then s else go (s.buffer.clock + time) s.limit s
where
  go (goal : Span) : Nat → Session → Session
    | 0, s => s
    | fuel + 1, s =>
      match s.alarms.nextDue? with
      | some due =>
        if due ≤ goal then go goal fuel (settle inner (passTo due s)) else passTo goal s
      | none => passTo goal s

def drain (inner : List Step → Session → Session) (s : Session) : Session :=
  let d := s.buffer.drains.length
  go d s.limit (s.act .drain)
where
  go (d : Nat) : Nat → Session → Session
    | 0, s => s
    | fuel + 1, s =>
      match s.buffer.drains[d]? with
      | some (some batch) =>
        let s := settle inner s
        if batch.all s.buffer.isOver then
          go d fuel (s.act (.redrain d))
        else
          match s.alarms.nextDue? with
          | some due => go d fuel (passTo due s)
          | none => s
      | _ => s

def counters (s : Session) : List (String × Nat) :=
  let t := s.buffer.tallies
  let all := [("clientUpdate.cnt", t.updates), ("clientDestroy.succ", t.closed),
    ("clientDestroy.fail", t.failed)]
  if s.recorded then
    ((all.filter (·.2 ≠ 0)).map fun c => (s.scope.key c.1, c.2)).mergeSort fun a b =>
      decide (a.1 ≤ b.1)
  else
    []

def inspect (s : Session) : String :=
  Text.inspect "ClientBuffer"
    [("clients", toString s.buffer.size), ("metrics", s.scope.inspect),
     ("pending_teardowns", toString s.buffer.pending)]

/--
Does a step, with `inner` for the steps that are nested in it.
-/
def performWith (inner : List Step → Session → Session) (step : Step) (s : Session) :
    Session × Answer :=
  let table := s.buffer.table
  match step with
  | .upsert name target => (s.act (.edit (table.upsert name target)), .done)
  | .remove name => (s.act (.edit (table.remove name)), .removed (table.get? name))
  | .reload text =>
    match TargetTable.read text with
    | .ok (t, events) => ({ s.act (.edit t) with events := s.events ++ events }, .accepted)
    | .error e => (s, .rejected e)
  | .get name options during =>
    get inner name options (match during with
      | some steps => { s with during := steps }
      | none => s)
  | .getter name options =>
    ({ s with getters := s.getters ++ [(name, options)] }, .getter s.getters.length)
  | .call g =>
    match s.getters[g]? with
    | some (name, options) => get inner name options s
    | none => (s, .done)
  | .target name => (s, .target (s.buffer.currentTarget? name))
  | .size => (s, .size s.buffer.size)
  | .pending => (s.act .prune, .count s.buffer.pending)
  | .counters => (s, .counters s.counters)
  | .inspect => (s.act .prune, .text s.inspect)
  | .onClose id steps => ({ s with onClose := s.onClose.insert id steps }, .done)
  | .advance time => (advance inner time s, .done)
  | .drain =>
    let s := drain inner s
    (s, .time (if s.down then none else some s.buffer.clock))
  | .shutdown => ({ s.act .shutdown with down := true }, .done)

/--
Does a step, with at most `fuel` levels of nesting.
-/
def perform : Nat → Step → Session → Session × Answer
  | 0, _, s => (s, .done)
  | fuel + 1, step, s => performWith (nest (perform fuel)) step s

/--
What a step of a script left behind: its answer, the clients that were handed to closers, the
answers of nested steps and the events.
-/
structure Turnout where
  answer : Answer
  closings : List Closing
  nested : List Answer
  events : List Event

/--
Whether the events of a step are given in the order of their sort keys.
-/
def sortsEvents : Step → Bool
  | .advance _ | .drain => true
  | _ => false

def sortClosings (cs : List Closing) : List Closing :=
  cs.mergeSort fun a b =>
    a.time.nanos < b.time.nanos || (a.time = b.time && a.client.id ≤ b.client.id)

def run (s : Session) (steps : List Step) : List Turnout :=
  let weight := weightOf steps
  go weight { s with limit := 4 * weight + 8 } steps
where
  go (weight : Nat) (s : Session) : List Step → List Turnout
    | [] => []
    | step :: rest =>
      let before := s.buffer.closings.length
      let (s, answer) := perform (weight + 1) step { s with nested := [], events := [] }
      let events := if sortsEvents step then Event.sort s.events else s.events
      { answer, closings := sortClosings (s.buffer.closings.drop before), nested := s.nested
        events } :: go weight s rest

def start (runtime : Runtime) (scope : Metrics.Scope) (recorded : Bool) : Session :=
  { buffer := .start runtime, scope, recorded, during := [], onClose := .empty, getters := []
    nested := [], events := [], limit := 0, down := false, turns := .start, alarms := []
    isInside := false }

end Session

end Upkeep.Client
