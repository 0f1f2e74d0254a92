/-!
This module contains the answers of configuration sources: a text, and whether it was read, put or
deleted.
-/

namespace Upkeep.Config

/--
What happened to a configuration text. `null` says that it was only read.
-/
inductive Kind where
  | null
  | put
  | del
  deriving DecidableEq, Inhabited

/--
A configuration text as a source gives it.
-/
structure Response where
  value : String
  kind : Kind
  deriving DecidableEq, Inhabited

/--
The response for a deletion. There is no text any more.
-/
def Response.deleted : Response := ⟨"", .del⟩

end Upkeep.Config
