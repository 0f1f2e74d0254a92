import Upkeep.Text.Quoted

/-!
This module contains the text of a value for inspection: the name of its type and its fields in
braces. A value that does not show all of its fields ends in two dots.
-/

namespace Upkeep.Text

/--
The text of fields with their names, separated by commas.
-/
def fieldsText (fields : List (String × String)) : String :=
  ", ".intercalate (fields.map fun f => f.1 ++ ": " ++ f.2)

/--
A value with all of its fields.
-/
def inspect (name : String) (fields : List (String × String)) : String :=
  if fields.isEmpty then name else name ++ " \x7b " ++ fieldsText fields ++ " \x7d"

/--
A value that shows some of its fields.
-/
def inspectPart (name : String) (fields : List (String × String)) : String :=
  if fields.isEmpty then name ++ " \x7b .. \x7d"
  else name ++ " \x7b " ++ fieldsText fields ++ ", .. \x7d"

def inspectList (items : List String) : String := "[" ++ ", ".intercalate items ++ "]"

def inspectMap (items : List (String × String)) : String :=
  "\x7b" ++ fieldsText items ++ "\x7d"

end Upkeep.Text
