import Upkeep.Dict

/-!
This module contains free values: what a document says when nothing is expected of it.
-/

namespace Upkeep.Format

inductive Value where
  | null
  | bool (b : Bool)
  | int (n : Int)
  | float (x : Float)
  | text (s : String)
  | list (items : List Value)
  | object (members : List (String × Value))
  deriving Inhabited

/--
The object with the given members in the order of their keys. Of two members with one key the later
is taken.
-/
def Value.ofMembers (members : List (String × Value)) : Value :=
  .object ((Dict.ofList members).entries.mergeSort fun a b => decide (a.1 ≤ b.1))

end Upkeep.Format
