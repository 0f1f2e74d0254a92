import Upkeep.Event
import Upkeep.Failure.CodeBook

/-!
This module contains the filter between services. On the side that serves, it writes a failure into
the response as a code and a message; on the side that calls, it reads a response whose code is not
the success code as a failure.
-/

namespace Upkeep

/--
Responses that have a place for a code and a message. `blank` is the response that is filled in
for a failure.
-/
class Carrier (ρ : Type u) where
  blank : ρ
  read : ρ → Coded
  write : ρ → Coded → ρ

/--
Takes part in telling a failure: sees the blank response with the code and message, may change the
response, and says whether the failure is to be left to the framework.
-/
abbrev Hook (ρ : Type u) := ρ → Coded → ρ × Bool

/--
The rules of a filter, and what may step in before a failure is written into a response.
-/
structure Filter (ρ : Type u) where
  book : CodeBook
  hook : Option (Hook ρ)

/--
Why a call failed: the framework could not carry it out, or the response said so.
-/
inductive CallError where
  | framework (cause : Failure)
  | coded (c : Coded)
  deriving DecidableEq

namespace CallError

/--
A call error as a failure of the caller. Of a failure that a response tells of, only the text is
left.
-/
def toFailure : CallError → Failure
  | framework cause => .wrapped ("rpc call failed: " ++ cause.text) cause
  | coded c => .plain c.text

end CallError

/--
The end of a served request. `shown` is what the hook was asked about, if it was asked.
-/
structure Served (ρ : Type u) where
  result : Except Failure ρ
  shown : Option Coded
  events : List Event

structure Called (ρ : Type u) where
  result : Except CallError ρ
  events : List Event

namespace Filter

/--
The filter without rules of its own.
-/
def standard : Filter ρ := { book := .standard, hook := none }

variable [Carrier ρ]

/--
Tells a failure to the caller: the hook may leave it to the framework, otherwise the blank response
that the hook has seen gets the code and message.
-/
def tell (f : Filter ρ) (cause : Failure) : Served ρ :=
  let c := f.book.extractWithDigest (some cause)
  let (rsp, taken) :=
    match f.hook with
    | some hook => hook Carrier.blank c
    | none => (Carrier.blank, false)
  let shown := f.hook.map fun _ => c
  if taken then
    { result := .error cause, shown, events := [] }
  else
    { result := .ok (Carrier.write rsp c), shown
      events := [.warn "err_to_code 转换"
        [("code", toString c.code), ("msg", c.message), ("error", cause.text)]] }

def serve (f : Filter ρ) (next : α → Except Failure ρ) (req : α) : Served ρ :=
  match next req with
  | .ok rsp => { result := .ok rsp, shown := none, events := [] }
  | .error cause => f.tell cause

def call (f : Filter ρ) (next : α → Except Failure ρ) (req : α) : Called ρ :=
  match next req with
  | .error cause => { result := .error (.framework cause), events := [] }
  | .ok rsp =>
    let c := Carrier.read rsp
    if c.code = f.book.success.code then
      { result := .ok rsp, events := [] }
    else
      { result := .error (.coded c)
        events := [.debug "code_to_err 转换" [("code", toString c.code), ("msg", c.message)]] }

omit [Carrier ρ] in
def inspect (f : Filter ρ) : String :=
  Text.inspect "ErrToCodeFilter"
    [("book", f.book.inspect), ("has_setter", toString f.hook.isSome)]

end Filter

end Upkeep
