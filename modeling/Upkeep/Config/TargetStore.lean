import Upkeep.Config.Target

/-!
This module contains stores of target tables. Several handles may share one table: what is done
through one of them is seen through all.
-/

namespace Upkeep.Config

/--
Tables, and for each handle the index of its table.
-/
structure TargetStore where
  tables : List TargetTable
  handles : List Nat
  deriving Inhabited

/--
What is done to a store, through a handle where one is needed.
-/
inductive TargetStep where
  | upsert (handle : Nat) (name : String) (target : Target)
  | remove (handle : Nat) (name : String)
  | reload (handle : Nat) (text : String)
  | create (text : String)
  | clone (handle : Nat)

inductive TargetAnswer where
  | done
  | accepted
  | rejected (e : ConfigError)
  | target (t : Option Target)
  | handle (h : Nat)

namespace TargetStore

/--
One empty table with one handle.
-/
def single : TargetStore := { tables := [.empty], handles := [0] }

/--
The table behind a handle. A handle that does not exist sees an empty table.
-/
def table (s : TargetStore) (handle : Nat) : TargetTable :=
  ((s.handles[handle]?).bind fun i => s.tables[i]?).getD .empty

def update (s : TargetStore) (handle : Nat) (f : TargetTable → TargetTable) : TargetStore :=
  match s.handles[handle]? with
  | some i => { s with tables := s.tables.modify i f }
  | none => s

def step (s : TargetStore) : TargetStep → TargetStore × TargetAnswer × List Event
  | .upsert handle name target => (s.update handle (·.upsert name target), .done, [])
  | .remove handle name =>
    (s.update handle (·.remove name), .target ((s.table handle).get? name), [])
  | .reload handle text =>
    match TargetTable.read text with
    | .ok (t, events) => (s.update handle fun _ => t, .accepted, events)
    | .error e => (s, .rejected e, [])
  | .create text =>
    match TargetTable.read text with
    | .ok (t, events) =>
      ({ tables := s.tables ++ [t], handles := s.handles ++ [s.tables.length] },
        .handle s.handles.length, events)
    | .error e => (s, .rejected e, [])
  | .clone handle =>
    match s.handles[handle]? with
    | some i => ({ s with handles := s.handles ++ [i] }, .handle s.handles.length, [])
    | none => (s, .done, [])

end TargetStore

end Upkeep.Config
