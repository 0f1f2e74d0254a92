import Upkeep.Capacity
import Upkeep.Metrics.Aggregator
import Upkeep.Metrics.Settings
import Upkeep.Metrics.Timer
import Upkeep.Text.Inspect

/-!
This module contains report sinks. Samples go into a bounded queue. A worker takes them out, holds
them by name, and writes a report of what it holds once in every period, and once more when nobody
can submit samples any more. A sample that finds the queue full or the worker gone is dropped.
-/

namespace Upkeep.Metrics

structure Sample where
  name : String
  value : Float
  deriving Inhabited

/--
Where the worker stands. While it runs, it knows when the next report is due.
-/
inductive Worker where
  | fresh
  | running (due : Span)
  | finished
  | crashed
  | aborted
  deriving DecidableEq, Inhabited

/--
A sink with its worker. `handles` says of each handle whether it is still there. `epoch` is what the
clock of the machine showed at the time zero, and `untilMinute` is the time from there to the next
full minute. `timer` says when reports are due after the first one.
-/
structure Sink where
  settings : Settings
  handles : List Bool
  queue : List Sample
  dropped : Nat
  worker : Worker
  held : Aggregator
  written : List Line
  clock : Span
  epoch : Span
  untilMinute : Span
  timer : Timer
  deriving Inhabited

inductive SinkAction where
  | submit (handle : Nat) (x : Sample)
  | clone
  | drop (handle : Nat)
  | begin
  | receive
  | flush
  | close
  | abort
  | pass (time : Span)

namespace Sink

/--
The names that are never reported begin with this: they are those of the reports themselves.
-/
def ownStem : String := "spark.kit.Log"

/--
The number of samples that the queue takes, at least one.
-/
def capacity (s : Sink) : Nat := max s.settings.capacity 1

/--
The time to the next full minute, by a clock that shows the nanoseconds since the year 1970. Only
whole milliseconds count, and for a clock that shows a time before that year it is a minute.
-/
def untilFullMinute (now : Int) : Span := Span.ofMillis (60000 - now.toNat / 1000000 % 60000)

/--
A sink with one handle, whose worker has had no turn yet. There is none if the queue cannot be made.
-/
def spawn (settings : Settings) (epoch untilMinute : Span) (timer : Timer) :
    Except CapacityFault Sink :=
  match CapacityFault.of? (max settings.capacity 1) with
  | some f => .error f
  | none =>
    .ok {
      settings, handles := [true], queue := [], dropped := 0, worker := .fresh, held := .empty
      written := [], clock := .zero, epoch, untilMinute, timer }

def ignores (s : Sink) (name : String) : Bool :=
  (ownStem :: s.settings.ignored).any fun p => p.toList.isPrefixOf name.toList

/--
Whether the worker will still take samples.
-/
def isOpen (s : Sink) : Bool :=
  match s.worker with
  | .fresh | .running _ => true
  | _ => false

/--
Puts a sample into the queue, or drops it.
-/
def enqueue (s : Sink) (x : Sample) : Sink :=
  if s.ignores x.name then s
  else if s.isOpen && s.queue.length < s.capacity then { s with queue := s.queue ++ [x] }
  else { s with dropped := s.dropped + 1 }

/--
Submits a sample through a handle, if that is still there.
-/
def submit (s : Sink) (handle : Nat) (x : Sample) : Sink :=
  if s.handles[handle]? = some true then s.enqueue x else s

/--
Whether somebody can still submit samples.
-/
def isHeld (s : Sink) : Bool := s.handles.any id

/--
The time from the first turn of the worker to the first report.
-/
def firstDelay (s : Sink) : Span :=
  if s.settings.alignToMinute then s.untilMinute else s.settings.period

/--
The worker crashes. What is queued and held is lost.
-/
def crash (s : Sink) : Sink := { s with worker := .crashed, queue := [], held := .empty }

/--
The first turn of the worker. It crashes if the time of the first report is beyond the clock.
-/
def begin (s : Sink) : Sink :=
  match s.worker with
  | .fresh =>
    if inClock (s.epoch + s.clock + s.firstDelay) then
      { s with worker := .running (s.clock + s.firstDelay) }
    else
      s.crash
  | _ => s

def receive (s : Sink) : Sink :=
  match s.worker, s.queue with
  | .running _, x :: rest => { s with queue := rest, held := s.held.record x.name x.value }
  | _, _ => s

def writeReport (s : Sink) : Sink :=
  let (summaries, held) := s.held.drain
  { s with held, written := s.written ++ report s.settings.level s.settings.server summaries }

/--
When the report after the one that was due is due.
-/
def nextDue? (s : Sink) (due : Span) : Option Span := s.timer due s.clock s.settings.period

/--
The worker writes a report, if one is due. It crashes before that if it does not know when the next
one is due.
-/
def flush (s : Sink) : Sink :=
  match s.worker with
  | .running due =>
    if due ≤ s.clock then
      match s.nextDue? due with
      | some next => { s.writeReport with worker := .running next }
      | none => s.crash
    else
      s
  | _ => s

/--
The worker ends, if nothing is queued and nobody can submit samples any more.
-/
def close (s : Sink) : Sink × List Event :=
  match s.worker with
  | .running _ =>
    if s.queue.isEmpty && !s.isHeld then
      ({ s.writeReport with worker := .finished },
        [.debug "metrics log sink stopped" [("server", s.settings.server)]])
    else
      (s, [])
  | _ => (s, [])

/--
Stops the worker wherever it stands. What is queued and held is lost.
-/
def abort (s : Sink) : Sink :=
  if s.isOpen then { s with worker := .aborted, queue := [], held := .empty } else s

def step (s : Sink) : SinkAction → Sink × List Event
  | .submit handle x => (s.submit handle x, [])
  | .clone => ({ s with handles := s.handles ++ [true] }, [])
  | .drop handle => ({ s with handles := s.handles.set handle false }, [])
  | .begin => (s.begin, [])
  | .receive => (s.receive, [])
  | .flush => (s.flush, [])
  | .close => s.close
  | .abort => (s.abort, [])
  | .pass time => ({ s with clock := s.clock + time }, [])

def run (s : Sink) (as : List SinkAction) : Sink × List Event :=
  as.foldl (fun (s, es) a =>
    let (s, more) := s.step a
    (s, es ++ more)) (s, [])

/--
The turns of the worker until it has nothing to do: the reports that are due and the samples that
are queued.
-/
def settling (s : Sink) : List SinkAction :=
  .begin :: .flush :: (s.queue.map fun _ => .receive) ++ [.close]

/--
Lets the worker do all it can do at this time.
-/
def settle (s : Sink) : Sink × List Event := s.run s.settling

def due? (s : Sink) : Option Span :=
  match s.worker with
  | .running due => some due
  | _ => none

/--
Lets the time pass until the reports that are due by a time are written, as many as the fuel allows.
-/
def toLastDue (goal : Span) : Nat → Sink → Sink
  | 0, s => s
  | fuel + 1, s =>
    match s.due? with
    | some due =>
      if due ≤ goal then
        toLastDue goal fuel (s.run [.pass ⟨due.nanos - s.clock.nanos⟩, .flush]).1
      else
        s
    | none => s

/--
A number that the reports which are due by a time do not exceed, if they keep to the period.
-/
def reportsUntil (s : Sink) (goal : Span) : Nat :=
  (goal.nanos - s.clock.nanos) / s.settings.period.nanos + 2

/--
Lets the time pass up to a goal. The worker writes the reports that are due on the way.
-/
def passTo (s : Sink) (goal : Span) : Sink :=
  let s := toLastDue goal (s.reportsUntil goal) s
  (s.step (.pass ⟨goal.nanos - s.clock.nanos⟩)).1

/--
Lets a time pass. Before and after it the worker does all it can do.
-/
def advance (s : Sink) (time : Span) : Sink × List Event :=
  let before := s.settle
  let after := (before.1.passTo (before.1.clock + time)).settle
  (after.1, before.2 ++ after.2)

/--
Whether the worker has ended, one way or another.
-/
def isFinished (s : Sink) : Bool := !s.isOpen

def inspect (s : Sink) : String :=
  Text.inspectPart "LogMetricsSink" [("dropped", toString s.dropped)]

end Sink

end Upkeep.Metrics
