import Upkeep.Format.Json.Tree

/-!
This module contains the reading of records from JSON texts. A record is an object with its fields
by name, or a list with exactly its fields in order.
-/

namespace Upkeep.Format.Json

namespace Tree

def bool? : Tree → Option Bool
  | bool b => some b
  | _ => none

/--
An integer that is not negative and below a bound.
-/
def nat? (bound : Nat) : Tree → Option Nat
  | number l =>
    match l.value? with
    | some (.int n) => if 0 ≤ n && n < bound then some n.toNat else none
    | _ => none
  | _ => none

/--
The values of the given fields. Each is named once; the names of others are strings, but their
values are not looked into.
-/
def fields? (fields : List String) : Tree → Option (List (Option Tree))
  | object members => do
    let named ← members.mapM fun m => (textOf? m.1).map fun k => (k, m.2)
    fields.mapM fun f =>
      match named.filter fun m => m.1 = f with
      | [] => some none
      | [m] => some (some m.2)
      | _ => none
  | list items => if items.length = fields.length then some (items.map some) else none
  | _ => none

end Tree

end Upkeep.Format.Json
