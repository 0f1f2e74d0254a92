import Upkeep.Log.Logger

/-!
This module contains stores of logs. Several handles may share one log: a level that is switched
through one of them is seen through all. What is reported of the switch goes to the log that
listens.
-/

namespace Upkeep.Log

/--
Logs, for each handle the index of its log, and the log that listens, if any.
-/
structure LogStore where
  logs : List Logger
  handles : List Nat
  listener : Option Nat
  deriving Inhabited

/--
What is done to a store, through a handle where one is needed.
-/
inductive LogStep where
  | build (s : Settings)
  | clone (handle : Nat)
  | level (handle : Nat)
  | setLevel (handle : Nat) (raw : String)
  | listen (log : Option Nat)
  | drop (log : Nat)

inductive LogAnswer where
  | done
  | handle (h : Nat)
  | level (l : Severity)
  | failed (e : LogError)
  deriving DecidableEq, Inhabited

namespace LogStore

def empty : LogStore := ⟨[], [], none⟩

def log? (s : LogStore) (handle : Nat) : Option Logger :=
  (s.handles[handle]?).bind fun i => s.logs[i]?

def update (s : LogStore) (handle : Nat) (l : Logger) : LogStore :=
  match s.handles[handle]? with
  | some i => { s with logs := s.logs.set i l }
  | none => s

/--
Does a step. The entries are what it reports.
-/
def step (s : LogStore) : LogStep → LogStore × LogAnswer × List Entry
  | .build settings =>
    match Logger.build settings with
    | .ok l =>
      ({ s with logs := s.logs ++ [l], handles := s.handles ++ [s.logs.length] },
        .handle s.handles.length, [])
    | .error e => (s, .failed e, [])
  | .clone handle =>
    match s.handles[handle]? with
    | some i => ({ s with handles := s.handles ++ [i] }, .handle s.handles.length, [])
    | none => (s, .done, [])
  | .level handle =>
    match s.log? handle with
    | some l => (s, .level l.level, [])
    | none => (s, .done, [])
  | .setLevel handle raw =>
    match s.log? handle with
    | some l =>
      match l.setLevel raw with
      | (.ok level, next, _) => (s.update handle next, .level level, Logger.reported l.level level)
      | (.error e, next, _) => (s.update handle next, .failed e, [])
    | none => (s, .done, [])
  | .listen log => ({ s with listener := log }, .done, [])
  | .drop log => ({ s with logs := s.logs.modify log Logger.drop }, .done, [])

def run (s : LogStore) (steps : List LogStep) : LogStore := steps.foldl (fun s a => (s.step a).1) s

/--
What is read of entries: they are written by the log that listens.
-/
def hear (s : LogStore) (es : List Entry) : List String :=
  match s.listener.bind fun i => s.logs[i]? with
  | some l => es.flatMap l.emit
  | none => []

end LogStore

end Upkeep.Log
