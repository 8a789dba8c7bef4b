import GuestBoundary.ThreadId

/-!
# Monitors

Every guest object can be locked by one thread at a time, as often as that thread likes, and is
free again after as many exits.
-/

namespace GuestBoundary

/-- A lock that its owner may take again. -/
structure Monitor where
  owner? : Option ThreadId
  /-- How many exits the owner still owes; no bound is put on it. -/
  count : Nat
  deriving DecidableEq, Inhabited

namespace Monitor

/-- A lock that nobody has taken. -/
def free : Monitor := ⟨none, 0⟩

def isHeldBy (m : Monitor) (t : ThreadId) : Bool := m.owner? == some t

/-- Takes the lock; `none` while another thread owns it. -/
def enter? (m : Monitor) (t : ThreadId) : Option Monitor :=
  match m.owner? with
  | none => some ⟨some t, 1⟩
  | some owner => if owner = t then some { m with count := m.count + 1 } else none

/-- Takes the lock unless another thread owns it, and answers whether it did. -/
def tryEnter (m : Monitor) (t : ThreadId) : Bool × Monitor :=
  match m.enter? t with
  | some m' => (true, m')
  | none => (false, m)

/-- Gives one entry back; `none` for a thread that does not own the lock. -/
def exit? (m : Monitor) (t : ThreadId) : Option Monitor :=
  if m.owner? = some t then
    let count := m.count - 1
    some ⟨if count = 0 then none else m.owner?, count⟩
  else none

/-- What a thread is told that exits without owning the lock. -/
def notOwnerMessage : String := "current thread does not own the monitor"

end Monitor

end GuestBoundary
