import GuestBoundary.Handle
import GuestBoundary.Value.Basic

/-!
# Argument slots

Native code passes the arguments of a call as 64-bit slots, one per parameter.  A value takes the
low bytes of its slot, as many as its kind has; what stands in the others does not matter.
-/

namespace GuestBoundary

/-- One argument as native code passes it. -/
abbrev Slot := UInt64

namespace Slot

/-- The value in a slot, where `resolve` tells what a handle stands for. -/
def read (resolve : Handle → Option ObjectRef) (k : Kind) (slot : Slot) : Value :=
  match k with
  | .primitive p => Value.ofWord p slot
  | .object => .reference (resolve ⟨slot⟩)
  | .void => .void

/-- The values of the parameters, one slot each in order; missing slots are zero. -/
def readAll (resolve : Handle → Option ObjectRef) : List Kind → List Slot → List Value
  | [], _ => []
  | .void :: ks, slots => .void :: readAll resolve ks slots
  | k :: ks, [] => read resolve k 0 :: readAll resolve ks []
  | k :: ks, slot :: slots => read resolve k slot :: readAll resolve ks slots

/-- The handles among the arguments, in order. -/
def handles : List Kind → List Slot → List Handle
  | [], _ => []
  | .void :: ks, slots => handles ks slots
  | .object :: ks, [] => .null :: handles ks []
  | .object :: ks, slot :: slots => ⟨slot⟩ :: handles ks slots
  | .primitive _ :: ks, slots => handles ks slots.tail

end Slot

end GuestBoundary
