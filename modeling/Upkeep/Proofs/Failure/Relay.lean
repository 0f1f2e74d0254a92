import Upkeep.Proofs.Failure.RoundTrip

/-!
This module contains chains of services. Each service but the last one asks the next, and if that
fails, fails with the error of its call, which it may explain further. A call error that was brought
by a response explains itself and has no code below it, so that a code does not get further than to
the first caller.
-/

namespace Upkeep

/--
A service between two others: what it asks of the next one, and how it explains that this failed.
-/
structure Relay (α : Type v) where
  ask : α → α
  context : α → List String

/--
What the service at the end of a chain is asked.
-/
def asked (rs : List (Relay α)) (req : α) : α := rs.foldl (fun req r => r.ask req) req

theorem CallError.coded?_toFailure_coded (c : Coded) : (CallError.coded c).toFailure.coded? = none :=
  rfl

namespace Filter

variable {ρ : Type u} {α : Type v} [Carrier ρ]

/--
The handler of a service that asks another one.
-/
def relay (f : Filter ρ) (r : Relay α) (next : α → Except Failure ρ) (req : α) :
    Except Failure ρ :=
  match (f.call next (r.ask req)).result with
  | .ok rsp => .ok rsp
  | .error e => .error (e.toFailure.explain (r.context req))

/--
The service at the front of a chain. All services have the same filter, also for their calls.
-/
def chain (f : Filter ρ) (handler : α → Except Failure ρ) : List (Relay α) → α → Except Failure ρ
  | [] => fun req => (f.serve handler req).result
  | r :: rs => fun req => (f.serve (f.relay r (f.chain handler rs)) req).result

theorem takes_of_hook_eq_none {f : Filter ρ} (hf : f.hook = none) (cause : Failure) :
    f.takes cause = false := by
  simp [takes, hf]

theorem code_of_call_eq_ok {f : Filter ρ} {next : α → Except Failure ρ} {req : α} {rsp : ρ}
    (h : (f.call next req).result = .ok rsp) : (Carrier.read rsp).code = f.book.success.code := by
  cases hn : next req with
  | error cause =>
    rw [call_of_error hn] at h
    simp at h
  | ok rsp' =>
    rw [call_of_ok hn] at h
    split at h
    . next hcode =>
      rw [← Except.ok.inj h]
      assumption
    . simp at h

/--
A response that a relay takes for a success is one for its caller, too.
-/
theorem call_relay_of_ok {f : Filter ρ} {r : Relay α} {next : α → Except Failure ρ} {req : α}
    {rsp : ρ} (h : (f.call next (r.ask req)).result = .ok rsp) :
    (f.call (fun req => (f.serve (f.relay r next) req).result) req).result = .ok rsp := by
  have hrelay : f.relay r next req = .ok rsp := by
    rw [relay, h]
  have hserved : (f.serve (f.relay r next) req).result = .ok rsp := by
    rw [serve_of_ok hrelay]
  have hcode := code_of_call_eq_ok h
  have hcalled : (f.call (fun req => (f.serve (f.relay r next) req).result) req).result = _ :=
    call_of_ok hserved
  rw [if_pos hcode] at hcalled
  exact hcalled

variable [LawfulCarrier ρ]

/--
The caller of a relay that a response has told of a failure hears the undefined code.
-/
theorem call_relay_of_coded {f : Filter ρ} (hf : f.hook = none) {r : Relay α}
    {next : α → Except Failure ρ} {req : α} {c : Coded}
    (h : (f.call next (r.ask req)).result = .error (.coded c)) :
    let heard := (f.call (fun req => (f.serve (f.relay r next) req).result) req).result
    (f.book.undefined.code ≠ f.book.success.code →
      ∃ message, heard = .error (.coded ⟨f.book.undefined.code, message⟩)) ∧
    (f.book.undefined.code = f.book.success.code → ∃ rsp, heard = .ok rsp) := by
  intro heard
  let cause := (CallError.coded c).toFailure.explain (r.context req)
  have hrelay : f.relay r next req = .error cause := by
    rw [relay, h]
  have hcode : (f.book.extractWithDigest (some cause)).code = f.book.undefined.code := by
    rw [CodeBook.code_extractWithDigest, Failure.coded?_explain, CallError.coded?_toFailure_coded]
    rfl
  obtain ⟨rsp, -, hcalled⟩ := call_of_told f f hrelay (takes_of_hook_eq_none hf cause)
  rw [hcode] at hcalled
  refine ⟨?_, ?_⟩
  . intro hne
    rw [if_neg hne] at hcalled
    refine ⟨(f.book.extractWithDigest (some cause)).message, ?_⟩
    rw [← hcode]
    exact hcalled
  . intro heq
    rw [if_pos heq] at hcalled
    exact ⟨rsp, hcalled⟩

/--
The caller of the first service of a chain hears the code of the failure at its end only if there is
no service between. Otherwise it hears the undefined code of the book, and of no failure at all if
that is the success code.
-/
theorem relayed_failure_loses_code (f : Filter ρ) (hf : f.hook = none)
    (handler : α → Except Failure ρ) (rs : List (Relay α)) (req : α) (cause : Failure)
    (hn : handler (asked rs req) = .error cause)
    (hcode : (cause.coded?.getD f.book.undefined).code ≠ f.book.success.code) :
    let heard := (f.call (f.chain handler rs) req).result
    (rs = [] → heard = .error (.coded (f.book.extractWithDigest (some cause))) ∧
      (f.book.extractWithDigest (some cause)).code =
        (cause.coded?.getD f.book.undefined).code) ∧
    (rs ≠ [] → f.book.undefined.code ≠ f.book.success.code →
      ∃ message, heard = .error (.coded ⟨f.book.undefined.code, message⟩)) ∧
    (rs ≠ [] → f.book.undefined.code = f.book.success.code → ∃ rsp, heard = .ok rsp) := by
  -- a relay forgets the code that it hears, so only the outcome of its own call matters
  induction rs generalizing req with
  | nil =>
    obtain ⟨rsp, -, hcalled⟩ := call_of_told f f hn (takes_of_hook_eq_none hf cause)
    rw [CodeBook.code_extractWithDigest, if_neg hcode] at hcalled
    refine ⟨fun _ => ⟨hcalled, CodeBook.code_extractWithDigest _ _⟩, ?_, ?_⟩
    . intro hne
      exact absurd rfl hne
    . intro hne
      exact absurd rfl hne
  | cons r rs ih =>
    obtain ⟨hlast, hcoded, hlost⟩ := ih (r.ask req) hn
    refine ⟨by simp, ?_, ?_⟩
    . intro _ hne
      by_cases hrs : rs = []
      . exact (call_relay_of_coded hf (hlast hrs).1).1 hne
      . obtain ⟨message, hheard⟩ := hcoded hrs hne
        exact (call_relay_of_coded hf hheard).1 hne
    . intro _ heq
      by_cases hrs : rs = []
      . exact (call_relay_of_coded hf (hlast hrs).1).2 heq
      . obtain ⟨rsp, hheard⟩ := hlost hrs heq
        exact ⟨rsp, call_relay_of_ok hheard⟩

def missing : String → Except Failure Reply := fun _ => .error (.coded ⟨404, "not found"⟩)

/--
Two relays, of which the second puts two explanations around the error of its call.
-/
def relays : List (Relay String) :=
  [⟨id, fun _ => []⟩, ⟨("users/" ++ ·), fun req => ["loading " ++ req, "asking the store"]⟩]

theorem relays_tell_undefined_code :
    let direct := ((standard : Filter Reply).call (standard.chain missing []) "u1").result
    let relayed := ((standard : Filter Reply).call (standard.chain missing relays) "u1").result
    (∃ c, direct = .error (.coded c) ∧ c.code = 404) ∧
      ∃ message, relayed = .error (.coded ⟨-1, message⟩) := by
  intro direct relayed
  have hdirect := relayed_failure_loses_code (standard : Filter Reply) rfl missing [] "u1" _ rfl
    (by decide)
  have hrelayed := relayed_failure_loses_code (standard : Filter Reply) rfl missing relays "u1" _
    rfl (by decide)
  exact ⟨⟨_, hdirect.1 rfl⟩, hrelayed.2.1 (by simp [relays]) (by decide)⟩

/--
One relay that answers with the call error itself is enough to lose a code.
-/
theorem code_lost_at_first_relay :
    let relayed := ((standard : Filter Reply).call
      (standard.chain missing [⟨id, fun _ => []⟩]) "u1").result
    (∃ message, relayed = .error (.coded ⟨-1, message⟩)) ∧
      ∀ message, relayed ≠ .error (.coded ⟨404, message⟩) := by
  intro relayed
  have hrelayed : ∃ message, relayed = .error (.coded ⟨-1, message⟩) := ⟨_, rfl⟩
  refine ⟨hrelayed, ?_⟩
  intro message hcoded
  obtain ⟨_, hrelayed⟩ := hrelayed
  rw [hrelayed] at hcoded
  simp at hcoded

end Filter

end Upkeep
