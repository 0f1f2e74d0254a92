/-!
This module contains the events that the library reports about itself: a severity, a message and
named fields. Operations return the events that they emit.
-/

namespace Upkeep

inductive Severity where
  | debug
  | info
  | warn
  | error
  deriving DecidableEq, Inhabited

/--
The upper-case name of a severity.
-/
def Severity.label : Severity → String
  | debug => "DEBUG"
  | info => "INFO"
  | warn => "WARN"
  | error => "ERROR"

structure Event where
  severity : Severity
  message : String
  fields : List (String × String)
  deriving DecidableEq, Inhabited

namespace Event

def debug (message : String) (fields : List (String × String)) : Event :=
  ⟨.debug, message, fields⟩

def info (message : String) (fields : List (String × String)) : Event :=
  ⟨.info, message, fields⟩

def warn (message : String) (fields : List (String × String)) : Event :=
  ⟨.warn, message, fields⟩

def error (message : String) (fields : List (String × String)) : Event :=
  ⟨.error, message, fields⟩

def sortedFields (e : Event) : List (String × String) :=
  e.fields.mergeSort fun a b => decide (a.1 ≤ b.1)

/--
The texts that decide the place of an event among others: severity, message, then the fields in
the order of their names.
-/
def sortKey (e : Event) : List String :=
  e.severity.label :: e.message :: e.sortedFields.flatMap fun f => [f.1, f.2]

def sort (es : List Event) : List Event :=
  es.mergeSort fun a b => !List.lex b.sortKey a.sortKey fun x y => decide (x < y)

end Event

end Upkeep
