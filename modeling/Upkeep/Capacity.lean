/-!
This module contains the capacities of bounded queues. A queue has room for one thing at least, and
the places in it are counted in 61 bits.
-/

namespace Upkeep

/--
Why there is no queue of a capacity.
-/
inductive CapacityFault where
  | noRoom
  | tooLarge
  deriving DecidableEq, Inhabited

namespace CapacityFault

def largest : Nat := 2305843009213693951

def of? (capacity : Nat) : Option CapacityFault :=
  if capacity = 0 then some noRoom
  else if largest < capacity then some tooLarge
  else none

def message : CapacityFault → String
  | noRoom => "mpsc bounded channel requires buffer > 0"
  | tooLarge =>
    "a semaphore may not have more than MAX_PERMITS permits (" ++ toString largest ++ ")"

end CapacityFault

end Upkeep
