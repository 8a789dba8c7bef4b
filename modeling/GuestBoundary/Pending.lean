/-!
# The pending exception

A function that raises cannot throw into native code: it leaves the throwable in a slot and
returns.  Raising again replaces what is there.
-/

namespace GuestBoundary

/-- The slot of one thread. -/
structure Pending (α : Type) where
  slot : Option α

namespace Pending

variable {α β σ : Type}

def empty : Pending α := ⟨none⟩

def set (_ : Pending α) (throwable : α) : Pending α := ⟨some throwable⟩

def clear (_ : Pending α) : Pending α := ⟨none⟩

def isPending (p : Pending α) : Bool := p.slot.isSome

/-- Empties the slot and answers what was in it. -/
def take (p : Pending α) : Option α × Pending α := (p.slot, ⟨none⟩)

/-- What is in the slot after a probe that found it empty: the throwable that was pending before
the probe, or else whatever the probe left. -/
def restore (saved : Option α) (p : Pending α) : Pending α :=
  match saved with
  | some throwable => p.set throwable
  | none => p

end Pending

end GuestBoundary
