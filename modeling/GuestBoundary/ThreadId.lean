/-!
# Threads

Threads are told apart by number.
-/

namespace GuestBoundary

/-- A thread of the program. -/
structure ThreadId where
  number : Nat
  deriving DecidableEq, Inhabited

/-- The thread in words. -/
def ThreadId.describe (t : ThreadId) : String := s!"ThreadId({t.number})"

end GuestBoundary
