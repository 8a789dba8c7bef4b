import GuestBoundary.Bridge
import GuestBoundary.ThreadId

/-!
# Call interfaces

A native function is called through a call interface, which tells the native types of its arguments
and of its result.  Each thread builds an interface the first time that it calls a function with a
calling convention, and keeps it under the text that spells the convention (`Signature.abi`).
-/

namespace GuestBoundary

/-- A type of the native calling convention. -/
inductive NativeType where
  | u8
  | s8
  | u16
  | s16
  | s32
  | float
  | s64
  | double
  | pointer
  | void
  deriving DecidableEq

/-- The native type of a primitive. -/
def Primitive.nativeType : Primitive → NativeType
  | boolean => .u8
  | byte => .s8
  | char => .u16
  | short => .s16
  | int => .s32
  | float => .float
  | long => .s64
  | double => .double

/-- The native type of a value of a kind. -/
def Kind.nativeType : Kind → NativeType
  | primitive p => p.nativeType
  | object => .pointer
  | void => .void

/-- How a native function is called. -/
structure CallInterface where
  arguments : List NativeType
  result : NativeType
  deriving DecidableEq

/-- The interface of the functions of a signature, which get the environment and the receiver or
the class first. -/
def CallInterface.ofSignature (s : Signature) : CallInterface :=
  ⟨(.object :: .object :: s.params).map Kind.nativeType, s.result.nativeType⟩

/-- The calling convention of the function of a binding. -/
def Binding.abi (b : Binding) : String := b.signature.abi

/-- The interfaces that a thread keeps, newest first. -/
structure CallInterfaces where
  entries : List (String × CallInterface)

namespace CallInterfaces

def empty : CallInterfaces := ⟨[]⟩

/-- The interface kept under the text of a calling convention. -/
def find? (c : CallInterfaces) (abi : String) : Option CallInterface := c.entries.lookup abi

/-- The interface kept under the text of a calling convention, which is that of `s` if there is
none yet; and what is kept then. -/
def get (c : CallInterfaces) (s : Signature) (abi : String) : CallInterface × CallInterfaces :=
  match c.find? abi with
  | some i => (i, c)
  | none => (.ofSignature s, ⟨(abi, .ofSignature s) :: c.entries⟩)

end CallInterfaces

/-- The interface with which a thread calls the function of a binding, and what every thread keeps
then. -/
def Binding.interface (b : Binding) (t : ThreadId) (kept : ThreadId → CallInterfaces) :
    CallInterface × (ThreadId → CallInterfaces) :=
  let (i, own) := (kept t).get b.signature b.abi
  (i, fun u => if u = t then own else kept u)

end GuestBoundary
