import Upkeep.Failure.Reply

/-!
This module contains the way of an outcome through two filters with one code book: from the handler
of a request into a response on the side that serves, and from there to the caller.
-/

namespace Upkeep

/--
Responses that give back the code and message that were written into them.
-/
class LawfulCarrier (ρ : Type u) [Carrier ρ] : Prop where
  read_write : ∀ (rsp : ρ) (c : Coded), Carrier.read (Carrier.write rsp c) = c

instance : LawfulCarrier Reply where
  read_write _ _ := rfl

theorem CodeBook.code_extractWithDigest (b : CodeBook) (f : Failure) :
    (b.extractWithDigest (some f)).code = (f.coded?.getD b.undefined).code := by
  cases f <;> rfl

namespace Filter

variable {ρ : Type u} {α : Type v} [Carrier ρ]

/--
Whether the hook leaves a failure to the framework.
-/
def takes (f : Filter ρ) (cause : Failure) : Bool :=
  f.hook.any fun hook => (hook Carrier.blank (f.book.extractWithDigest (some cause))).2

theorem tell_of_takes {f : Filter ρ} {cause : Failure} (ht : f.takes cause = true) :
    (f.tell cause).result = .error cause := by
  unfold takes at ht
  unfold tell
  cases hh : f.hook with
  | none => simp [hh] at ht
  | some hook =>
    rw [hh, Option.any_some] at ht
    simp [ht]

/--
The response that the hook leaves for a failure, before the code and message are written into it.
-/
def left (f : Filter ρ) (cause : Failure) : ρ :=
  match f.hook with
  | some hook => (hook Carrier.blank (f.book.extractWithDigest (some cause))).1
  | none => Carrier.blank

/--
Whatever the hook has left in the response, the code and message of the failure are written into it.
-/
theorem tell_of_not_takes {f : Filter ρ} {cause : Failure} (ht : f.takes cause = false) :
    (f.tell cause).result =
      .ok (Carrier.write (f.left cause) (f.book.extractWithDigest (some cause))) := by
  unfold takes at ht
  unfold tell left
  cases hh : f.hook with
  | none => rfl
  | some hook =>
    rw [hh, Option.any_some] at ht
    simp [ht]

theorem call_of_error {f : Filter ρ} {next : α → Except Failure ρ} {req : α} {cause : Failure}
    (hn : next req = .error cause) : (f.call next req).result = .error (.framework cause) := by
  simp [call, hn]

theorem call_of_ok {f : Filter ρ} {next : α → Except Failure ρ} {req : α} {rsp : ρ}
    (hn : next req = .ok rsp) :
    (f.call next req).result =
      if (Carrier.read rsp).code = f.book.success.code then .ok rsp
      else .error (.coded (Carrier.read rsp)) := by
  simp only [call, hn]
  split <;> rfl

theorem serve_of_ok {f : Filter ρ} {next : α → Except Failure ρ} {req : α} {rsp : ρ}
    (hn : next req = .ok rsp) :
    f.serve next req = { result := .ok rsp, shown := none, events := [] } := by
  simp [serve, hn]

theorem serve_of_error {f : Filter ρ} {next : α → Except Failure ρ} {req : α} {cause : Failure}
    (hn : next req = .error cause) : f.serve next req = f.tell cause := by
  simp [serve, hn]

/--
What comes of a failure that the hook does not take: the response with the code and message in it is
taken for success if the success code is read from it.
-/
theorem call_of_left (server client : Filter ρ) {next : α → Except Failure ρ} {req : α}
    {cause : Failure} (hn : next req = .error cause) (ht : server.takes cause = false) :
    let answer := Carrier.write (server.left cause) (server.book.extractWithDigest (some cause))
    (client.call (fun req => (server.serve next req).result) req).result =
      if (Carrier.read answer).code = client.book.success.code then .ok answer
      else .error (.coded (Carrier.read answer)) := by
  apply call_of_ok
  rw [serve_of_error hn]
  apply tell_of_not_takes ht

variable [LawfulCarrier ρ]

/--
What comes of a failure that the hook does not take: the caller reads what was written, and takes it
for success if it has the success code.
-/
theorem call_of_told (server client : Filter ρ) {next : α → Except Failure ρ} {req : α}
    {cause : Failure} (hn : next req = .error cause) (ht : server.takes cause = false) :
    let told := server.book.extractWithDigest (some cause)
    ∃ rsp, Carrier.read rsp = told ∧
      (client.call (fun req => (server.serve next req).result) req).result =
        if told.code = client.book.success.code then .ok rsp else .error (.coded told) := by
  intro told
  have hcalled := call_of_left server client hn ht
  dsimp only at hcalled
  rw [LawfulCarrier.read_write] at hcalled
  exact ⟨_, LawfulCarrier.read_write (server.left cause) told, hcalled⟩

/--
A filter on the side that calls, around one on the side that serves, with the same book. A response
of the handler arrives unless its code is not the success code; then its code and message do, and no
hook is asked. A failure that the hook takes arrives as it is. Of any other failure arrive the code
and message that the book gives, unless that is the success code, whatever the hook has written.
-/
theorem call_of_serve (book : CodeBook) (hook clientHook : Option (Hook ρ))
    (next : α → Except Failure ρ) (req : α) :
    let server : Filter ρ := ⟨book, hook⟩
    let client : Filter ρ := ⟨book, clientHook⟩
    let served := server.serve next req
    let called := client.call (fun req => (server.serve next req).result) req
    (∀ rsp, next req = .ok rsp → served.shown = none ∧
      called.result = if (Carrier.read rsp).code = book.success.code then .ok rsp
        else .error (.coded (Carrier.read rsp))) ∧
    ∀ cause, next req = .error cause →
      (server.takes cause = true → called.result = .error (.framework cause)) ∧
      (server.takes cause = false →
        (book.extractWithDigest (some cause)).code ≠ book.success.code →
        called.result = .error (.coded (book.extractWithDigest (some cause)))) := by
  intro server client served called
  refine ⟨?_, ?_⟩
  . intro rsp hn
    have hserved : served = { result := .ok rsp, shown := none, events := [] } := serve_of_ok hn
    rw [hserved]
    exact ⟨rfl, call_of_ok (congrArg Served.result hserved)⟩
  . intro cause hn
    refine ⟨?_, ?_⟩
    . intro ht
      apply call_of_error
      rw [serve_of_error hn, tell_of_takes ht]
    . intro ht hcode
      obtain ⟨rsp, -, hcalled⟩ := call_of_told server client hn ht
      rw [if_neg hcode] at hcalled
      exact hcalled

/--
A hook that writes success into the response before it declines does not hide the failure.
-/
theorem declined_writing_is_lost :
    let hook : Hook Reply := fun rsp _ => ({ rsp with code := 0, message := "fine" }, false)
    let filter : Filter Reply := ⟨.standard, some hook⟩
    let cause := Failure.wrapped "loading user" (.coded ⟨7, "no such user"⟩)
    let next : String → Except Failure Reply := fun _ => .error cause
    (filter.call (fun req => (filter.serve next req).result) "u1").result =
      .error (.coded (CodeBook.standard.extractWithDigest (some cause))) := by
  intro hook filter cause next
  exact ((call_of_serve .standard (some hook) (some hook) next "u1").2 cause rfl).2 rfl (by decide)

omit [LawfulCarrier ρ] in
/--
A failure of the handler arrives as an error just if the hook takes it or the response does not read
as a success. If responses give back what was written into them, the latter is decided by the failure
and the book alone: the code that the failure carries, or else the undefined code of the book, is not
the success code.
-/
theorem failure_arrives_iff (book : CodeBook) (hook clientHook : Option (Hook ρ))
    (next : α → Except Failure ρ) (req : α) (cause : Failure) (hn : next req = .error cause) :
    let server : Filter ρ := ⟨book, hook⟩
    let client : Filter ρ := ⟨book, clientHook⟩
    let called := client.call (fun req => (server.serve next req).result) req
    let answer := Carrier.write (server.left cause) (book.extractWithDigest (some cause))
    ((∃ e, called.result = .error e) ↔
      server.takes cause = true ∨ (Carrier.read answer).code ≠ book.success.code) ∧
    (LawfulCarrier ρ →
      ((∃ e, called.result = .error e) ↔
        server.takes cause = true ∨
          (cause.coded?.getD book.undefined).code ≠ book.success.code)) := by
  intro server client called answer
  have harrives : (∃ e, called.result = .error e) ↔
      server.takes cause = true ∨ (Carrier.read answer).code ≠ book.success.code := by
    cases ht : server.takes cause with
    | true =>
      have hserved : (server.serve next req).result = .error cause := by
        rw [serve_of_error hn, tell_of_takes ht]
      have hcalled : called.result = .error (.framework cause) := call_of_error hserved
      simp [hcalled]
    | false =>
      have hcalled : called.result =
          if (Carrier.read answer).code = book.success.code then .ok answer
          else .error (.coded (Carrier.read answer)) := call_of_left server client hn ht
      by_cases hcode : (Carrier.read answer).code = book.success.code
      . simp [hcalled, hcode]
      . simp [hcalled, hcode]
  refine ⟨harrives, ?_⟩
  intro hlawful
  have hread : Carrier.read answer = book.extractWithDigest (some cause) :=
    hlawful.read_write (server.left cause) _
  rw [hread, CodeBook.code_extractWithDigest] at harrives
  exact harrives

/--
A code below an explanation, told after a hook has written success into the response.
-/
theorem code_below_explanation_arrives :
    let hook : Hook Reply := fun rsp _ => ({ rsp with code := 0, message := "fine" }, false)
    let filter : Filter Reply := ⟨.standard, some hook⟩
    let next : String → Except Failure Reply :=
      fun _ => .error (.wrapped "loading user" (.coded ⟨7, "no such user"⟩))
    ∃ e, (filter.call (fun req => (filter.serve next req).result) "u1").result = .error e := by
  intro hook filter next
  have harrives := failure_arrives_iff .standard (some hook) (some hook) next "u1"
    (.wrapped "loading user" (.coded ⟨7, "no such user"⟩)) rfl
  apply (harrives.2 inferInstance).2
  right
  decide

/--
A failure that carries the success code, and one without a code where the undefined code is the
success code, arrive as successes.
-/
theorem failure_with_success_code_arrives_as_success :
    let filter : Filter Reply := .standard
    let unset : Filter Reply := ⟨{ CodeBook.standard with success := ⟨-1, "ok"⟩ }, none⟩
    let refused : String → Except Failure Reply := fun _ => .error (.coded ⟨0, "refused"⟩)
    let broken : String → Except Failure Reply := fun _ => .error (.plain "connection reset")
    (filter.call (fun req => (filter.serve refused req).result) "u1").result =
      .ok ⟨0, "refused", ""⟩ ∧
    ∃ rsp, (unset.call (fun req => (unset.serve broken req).result) "u1").result = .ok rsp ∧
      rsp.code = -1 := by
  intro filter unset refused broken
  exact ⟨rfl, _, rfl, rfl⟩

end Filter

end Upkeep
