import Upkeep.Failure.Filter

/-!
This module contains replies: a code, a message and a body.
-/

namespace Upkeep

/--
A response that consists of texts.
-/
structure Reply where
  code : Int
  message : String
  body : String
  deriving DecidableEq, Inhabited

instance : Carrier Reply where
  blank := ⟨0, "", ""⟩
  read r := ⟨r.code, r.message⟩
  write r c := { r with code := c.code, message := c.message }

end Upkeep
