import GuestBoundary.Descriptor.Parser

/-!
# Native signatures

What a native function is called with follows from the kinds of its method's parameters and of
its result, behind two pointers that every native function gets: the environment, and the
receiver or the class.  `Signature.abi` spells this out.  Signatures are read once per descriptor
and kept in a `SignatureCache`.
-/

namespace GuestBoundary

/-- How a primitive is passed. -/
def Primitive.abiName : Primitive → String
  | boolean => "uint8"
  | byte => "sint8"
  | char => "uint16"
  | short => "sint16"
  | int => "sint32"
  | float => "float"
  | long => "sint64"
  | double => "double"

/-- How a value of a kind is passed. -/
def Kind.abiName : Kind → String
  | primitive p => p.abiName
  | object => "pointer"
  | void => "void"

/-- The kinds of a method's parameters and result. -/
structure Signature where
  descriptor : String
  params : List Kind
  result : Kind
  deriving DecidableEq

namespace Signature

/-- The signature of a method type. -/
def ofType (m : MethodType) : Signature := ⟨m.text, m.paramKinds, m.resultKind⟩

/-- The signature that a descriptor spells. -/
def parse (descriptor : String) : Except DescriptorError Signature :=
  (MethodType.parse descriptor).map ofType

/-- The calling convention of the native function. -/
def abi (s : Signature) : String :=
  "(" ++ ", ".intercalate ((.object :: .object :: s.params).map Kind.abiName) ++ "): " ++
    s.result.abiName

end Signature

/-- The signatures read so far, oldest first. -/
structure SignatureCache where
  entries : List Signature

namespace SignatureCache

def empty : SignatureCache := ⟨[]⟩

def size (c : SignatureCache) : Nat := c.entries.length

/-- The signature kept for a descriptor. -/
def find? (c : SignatureCache) (descriptor : String) : Option Signature :=
  c.entries.find? fun s => s.descriptor == descriptor

/-- The signature of a descriptor and the cache that keeps it. -/
def get (c : SignatureCache) (descriptor : String) :
    Except DescriptorError (Signature × SignatureCache) :=
  match c.find? descriptor with
  | some s => .ok (s, c)
  | none =>
    match Signature.parse descriptor with
    | .error e => .error e
    | .ok s => .ok (s, ⟨c.entries ++ [s]⟩)

/-- The place of a kept signature: the same one for the same descriptor, however often it is
asked for. -/
def place? (c : SignatureCache) (descriptor : String) : Option Nat :=
  c.entries.findIdx? fun s => s.descriptor == descriptor

end SignatureCache

end GuestBoundary
