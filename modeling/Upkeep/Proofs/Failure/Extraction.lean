import Upkeep.Proofs.Failure.RoundTrip

/-!
This module contains what a code book makes of a failure, with and without its digest. Both find
the same code, at whatever level of the failure it stands, and the message with the digest begins
with the one without it.
-/

namespace Upkeep

namespace Failure

/--
All levels of a failure, outermost first.
-/
def levels : Failure → List Failure
  | wrapped message cause => wrapped message cause :: cause.levels
  | f => [f]

/--
The code that a failure is, if its outermost level is one.
-/
def bare? : Failure → Option Coded
  | coded c => some c
  | _ => none

theorem coded?_eq_findSome?_levels (f : Failure) : f.coded? = f.levels.findSome? bare? := by
  induction f with
  | coded c => rfl
  | plain message => rfl
  | wrapped message cause ih =>
    rw [coded?_wrapped, ih, levels, List.findSome?_cons]
    rfl

end Failure

namespace CodeBook

/--
The code and description that a caller is to see: those of the outermost code of a failure, or else
what the book has for failures without one.
-/
def chosen (b : CodeBook) : Option Failure → Coded
  | none => b.success
  | some f => (f.levels.findSome? Failure.bare?).getD b.undefined

theorem extract_eq (b : CodeBook) (o : Option Failure) :
    b.extract o = ⟨(b.chosen o).code, singleLine (b.chosen o).message⟩ := by
  cases o with
  | none => rfl
  | some f =>
    rw [chosen, ← f.coded?_eq_findSome?_levels]
    rfl

/--
For a failure that is more than a code, adding the digest keeps the code, and appends to the message
the description of the digest and the digest, each on one line.
-/
theorem extractWithDigest_of_not_bare (b : CodeBook) {f : Failure} (hf : f.bare? = none) :
    b.extractWithDigest (some f) =
      { b.extract (some f) with
        message := (b.extract (some f)).message ++ ", " ++ singleLine b.digestDescription ++ ": " ++
          singleLine (b.digest f) } := by
  have hcomma : singleLine ", " = ", " := by decide
  have hcolon : singleLine ": " = ": " := by decide
  cases f with
  | coded c => cases hf
  | plain message | wrapped message cause =>
    simp only [extractWithDigest, extract, singleLine_append, hcomma, hcolon]

/--
The code and message without the digest are those of the outermost code, on one line. The code with
the digest is the same, and the message with it is the same if there is no failure or it is only a
code; otherwise the digest of the whole failure follows it. There is no line feed in a message, and
what is put around a failure changes neither the code nor the message without the digest.
-/
theorem extractions_agree (b : CodeBook) (o : Option Failure) :
    let plain := b.extract o
    let full := b.extractWithDigest o
    plain = ⟨(b.chosen o).code, singleLine (b.chosen o).message⟩ ∧
    full.code = plain.code ∧
    (full.message =
      match o with
      | none | some (.coded _) => plain.message
      | some f => plain.message ++ ", " ++ singleLine b.digestDescription ++ ": " ++
          singleLine (b.digest f)) ∧
    '\n' ∉ plain.message.toList ∧ '\n' ∉ full.message.toList ∧
    ∀ messages, b.extract (o.map (Failure.explain messages)) = plain := by
  intro plain full
  have hplain : plain = ⟨(b.chosen o).code, singleLine (b.chosen o).message⟩ := b.extract_eq o
  refine ⟨hplain, ?_, ?_, ?_, ?_, ?_⟩
  . cases o with
    | none => rfl
    | some f => exact b.code_extractWithDigest f
  . cases o with
    | none => rfl
    | some f =>
      cases f with
      | coded c => rfl
      | plain message => exact congrArg Coded.message (b.extractWithDigest_of_not_bare rfl)
      | wrapped message cause => exact congrArg Coded.message (b.extractWithDigest_of_not_bare rfl)
  . rw [hplain]
    apply not_mem_toList_singleLine
  . cases o with
    | none => apply not_mem_toList_singleLine
    | some f => cases f <;> apply not_mem_toList_singleLine
  . intro messages
    cases o with
    | none => rfl
    | some f =>
      change b.extract (some (f.explain messages)) = b.extract (some f)
      rw [extract, extract, Failure.coded?_explain]

-- the digest and its description may have line feeds of their own
example :
    let b : CodeBook :=
      { CodeBook.standard with digestDescription := "see\nlog", digest := Failure.text }
    b.extractWithDigest (some (.wrapped "disk\nfull" (.coded ⟨7, "try\nlater"⟩))) =
      ⟨7, "try\\nlater, see\\nlog: disk\\nfull"⟩ := by
  decide

end CodeBook

end Upkeep
