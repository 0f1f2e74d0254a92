/-!
This module contains failures: a text for each level of explanation, outermost first, and at the end
possibly a code that the level below has chosen for its callers.
-/

namespace Upkeep

/--
A code with a description that may be shown to callers.
-/
structure Coded where
  code : Int
  message : String
  deriving DecidableEq, Inhabited

def Coded.text (c : Coded) : String := "code: " ++ toString c.code ++ ", msg: " ++ c.message

/--
What went wrong. A wrapped failure explains what the failure below it made impossible.
-/
inductive Failure where
  | coded (c : Coded)
  | plain (message : String)
  | wrapped (message : String) (cause : Failure)
  deriving DecidableEq, Inhabited

namespace Failure

/--
The text of the outermost level.
-/
def text : Failure → String
  | coded c => c.text
  | plain message => message
  | wrapped message _ => message

/--
The texts of all levels, outermost first.
-/
def texts : Failure → List String
  | coded c => [c.text]
  | plain message => [message]
  | wrapped message cause => message :: cause.texts

/--
The code that the failure carries at its innermost level.
-/
def coded? : Failure → Option Coded
  | coded c => some c
  | plain _ => none
  | wrapped _ cause => cause.coded?

/--
Puts explanations around a failure, the first of them outermost.
-/
def explain (messages : List String) (f : Failure) : Failure := messages.foldr wrapped f

@[simp]
theorem coded?_wrapped (message : String) (f : Failure) :
    (wrapped message f).coded? = f.coded? := rfl

@[simp]
theorem coded?_explain (messages : List String) (f : Failure) :
    (f.explain messages).coded? = f.coded? := by
  induction messages with
  | nil => rfl
  | cons m ms ih => exact ih

end Failure

end Upkeep
