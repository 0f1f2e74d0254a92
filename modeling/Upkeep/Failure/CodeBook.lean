import Upkeep.Failure.Basic
import Upkeep.Digest.Sha256
import Upkeep.Text.Quoted
import Upkeep.Text.Inspect

/-!
This module contains code books: which code and which one-line message a caller gets to see for a
failure. A caller sees the code and description of a failure that carries one; of everything else
only a fixed description and a digest, by which the failure can be found in the logs.
-/

namespace Upkeep

def singleLine (s : String) : String :=
  String.ofList (s.toList.flatMap fun c => if c = '\n' then ['\\', 'n'] else [c])

theorem not_mem_toList_singleLine (s : String) : '\n' ∉ (singleLine s).toList := by
  simp only [singleLine, String.toList_ofList, List.mem_flatMap, not_exists, not_and]
  intro c _
  split
  · decide
  · simp_all [eq_comm]

theorem singleLine_append (s t : String) : singleLine (s ++ t) = singleLine s ++ singleLine t := by
  simp [singleLine, String.ofList_append]

/--
The first eight hexadecimal digits of the SHA-256 hash of all texts of a failure.
-/
def Failure.digest (f : Failure) : String :=
  let bytes := (": ".intercalate f.texts).toUTF8.toList
  Digest.hex ((Digest.sha256 bytes).take 4)

/--
The rules by which failures are told to callers.
-/
structure CodeBook where
  success : Coded
  undefined : Coded
  digestDescription : String
  digest : Failure → String

namespace CodeBook

/--
The rules that hold where nothing else is said.
-/
def standard : CodeBook :=
  { success := ⟨0, "success"⟩
    undefined := ⟨-1, "unknown error"⟩
    digestDescription := "digest code"
    digest := Failure.digest }

instance : Inhabited CodeBook := ⟨standard⟩

/--
The code and message of a failure, or of success if there is none. Only what the failure chose to
show is shown.
-/
def extract (b : CodeBook) : Option Failure → Coded
  | none => ⟨b.success.code, singleLine b.success.message⟩
  | some f =>
    let c := f.coded?.getD b.undefined
    ⟨c.code, singleLine c.message⟩

/--
As `extract`, but for a failure that is more than a code the message ends in its digest.
-/
def extractWithDigest (b : CodeBook) : Option Failure → Coded
  | none => ⟨b.success.code, singleLine b.success.message⟩
  | some (.coded c) => ⟨c.code, singleLine c.message⟩
  | some f =>
    let c := f.coded?.getD b.undefined
    ⟨c.code, singleLine (c.message ++ ", " ++ b.digestDescription ++ ": " ++ b.digest f)⟩

def inspect (b : CodeBook) : String :=
  Text.inspectPart "CodeBook"
    [("success_code", toString b.success.code),
     ("success_message", Text.quote b.success.message),
     ("undefined_code", toString b.undefined.code),
     ("undefined_message", Text.quote b.undefined.message),
     ("digest_description", Text.quote b.digestDescription)]

end CodeBook

def Coded.inspect (c : Coded) : String :=
  Text.inspect "CodedError" [("code", toString c.code), ("message", Text.quote c.message)]

end Upkeep
