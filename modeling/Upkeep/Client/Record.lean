import Upkeep.Failure.Basic
import Upkeep.Span
import Upkeep.Text.Inspect
import Upkeep.Text.Quoted

/-!
This module contains clients, the records that a buffer keeps of them, and what can go wrong when
one is asked for.
-/

namespace Upkeep.Client

/--
A connection. No two connections have the same number. `target` is where it leads.
-/
structure Connection where
  id : Nat
  name : String
  target : String
  options : String
  deriving DecidableEq, Inhabited

/--
The longest time that a client is kept after it was replaced.
-/
def maxGrace : Span := Span.ofSeconds 60

/--
How long a client is kept after it was replaced: as long as a call to it may take.
-/
def graceOf (timeout : Span) : Span := min timeout maxGrace

/--
A client, the target that was wanted when it was built, and how long it is kept after it was
replaced.
-/
structure Record (γ : Type u) where
  client : γ
  target : String
  grace : Span
  deriving DecidableEq, Inhabited

namespace Record

/--
The record of a client that was built for a target with a timeout.
-/
def make (client : γ) (target : String) (timeout : Span) : Record γ :=
  { client, target, grace := graceOf timeout }

def inspect (text : γ → String) (r : Record γ) : String :=
  Text.inspect "ClientRecord"
    [("client", text r.client), ("target", Text.quote r.target),
     ("grace_period", r.grace.text)]

end Record

inductive ClientError where
  | notConfigured (name : String)
  | constructionFailed (name : String) (cause : Failure)
  deriving DecidableEq, Inhabited

namespace ClientError

def name : ClientError → String
  | notConfigured name => name
  | constructionFailed name _ => name

def message : ClientError → String
  | notConfigured name => "client '" ++ name ++ "' is not configured"
  | constructionFailed name _ => "build client '" ++ name ++ "' failed"

def toFailure : ClientError → Failure
  | constructionFailed name cause => .wrapped (constructionFailed name cause).message cause
  | e => .plain e.message

end ClientError

end Upkeep.Client
