import GuestBoundary.Fault
import GuestBoundary.Value.Basic

/-!
# Conversion between kinds

A function of the interface is made for one kind, but the value that it meets may be of another.
In strict mode that is an error.  In compatibility mode a primitive goes through a 64-bit word:
integers are extended and cut, truth values are zero or one, floating values are their bits.  A
null may stand for a primitive's zero only where the caller says so.
-/

namespace GuestBoundary

/-- What becomes of a primitive of the wrong kind. -/
inductive ConversionMode where
  | strict
  | compatibility
  deriving DecidableEq, Inhabited

/-- What becomes of a null where a primitive is wanted. -/
inductive NullPolicy where
  | zero
  | reject
  deriving DecidableEq

/-- Why a value was not converted. -/
inductive ConversionError where
  | strict (expected found : Kind)
  | null (expected : Kind)
  | incompatible (expected found : Kind)
  deriving DecidableEq

namespace ConversionError

def message : ConversionError → String
  | strict expected found =>
    s!"strict conversion: {found.name} value where {expected.name} was expected"
  | null expected => s!"null where {expected.name} was expected"
  | incompatible expected found => s!"cannot convert {found.name} to {expected.name}"

/-- The fault as which the guest sees the error. -/
def toFault (e : ConversionError) : GuestFault :=
  match e with
  | strict _ _ => ⟨.internal, e.message⟩
  | null _ => ⟨.nullPointer, e.message⟩
  | incompatible _ _ => ⟨.classCast, e.message⟩

end ConversionError

namespace ConversionMode

def name : ConversionMode → String
  | strict => "Strict"
  | compatibility => "Compatibility"

/-- The reference that a value stands for: `void` is null, and in compatibility mode so is a
primitive zero. -/
def toReference (mode : ConversionMode) (v : Value) : Except ConversionError (Option ObjectRef) :=
  match v with
  | .reference o => .ok o
  | .void => .ok none
  | v =>
    match mode with
    | strict => .error (.strict .object v.kind)
    | compatibility =>
      if v.toBits = some 0 then .ok none else .error (.incompatible .object v.kind)

/-- The primitive of type `want` that a value stands for. -/
def toPrimitive (mode : ConversionMode) (v : Value) (want : Primitive) (nulls : NullPolicy) :
    Except ConversionError Value :=
  if v.kind = want then .ok v
  else
    match v with
    | .reference (some _) => .error (.incompatible want .object)
    | .reference none | .void =>
      match nulls with
      | .zero => .ok (Value.zero want)
      | .reject => .error (.null want)
    | v =>
      match mode with
      | strict => .error (.strict want v.kind)
      | compatibility =>
        match v.toBits with
        | some w => .ok (Value.ofBits want w)
        | none => .error (.incompatible want v.kind)

/-- The value of kind `want` that a value stands for. -/
def convert (mode : ConversionMode) (v : Value) (want : Kind) (nulls : NullPolicy) :
    Except ConversionError Value :=
  match want with
  | .void => .ok .void
  | .object => (mode.toReference v).map Value.reference
  | .primitive p => mode.toPrimitive v p nulls

/-- The value of a declared result kind that a guest result stands for. -/
def convertResult (mode : ConversionMode) (v : Value) (declared : Kind) :
    Except ConversionError Value :=
  mode.convert v declared .zero

end ConversionMode

end GuestBoundary
