/-!
# Kinds of values

A value that crosses the boundary is a primitive of one of eight types, a reference to a guest
object, or nothing at all.  This file names the kinds, gives each its descriptor letter, its
keyword and its width in native memory, and shows that letters and primitives determine each
other (`ofLetter?_letter`, `letter_of_ofLetter?`).
-/

namespace GuestBoundary

/-- The eight primitive types, in descriptor order. -/
inductive Primitive where
  | boolean
  | byte
  | char
  | short
  | int
  | float
  | long
  | double
  deriving DecidableEq, Inhabited

/-- What a value is at the boundary: a primitive, a reference, or the absence of a value. -/
inductive Kind where
  | primitive (type : Primitive)
  | object
  | void
  deriving DecidableEq, Inhabited

instance : Coe Primitive Kind := ⟨Kind.primitive⟩

namespace Primitive

/-- Every primitive type, in descriptor order. -/
def all : List Primitive := [boolean, byte, char, short, int, float, long, double]

theorem mem_all (p : Primitive) : p ∈ all := by cases p <;> decide

/-- The descriptor letter. -/
def letter : Primitive → Char
  | boolean => 'Z'
  | byte => 'B'
  | char => 'C'
  | short => 'S'
  | int => 'I'
  | float => 'F'
  | long => 'J'
  | double => 'D'

/-- The primitive type that a descriptor letter stands for. -/
def ofLetter? : Char → Option Primitive
  | 'Z' => some boolean
  | 'B' => some byte
  | 'C' => some char
  | 'S' => some short
  | 'I' => some int
  | 'F' => some float
  | 'J' => some long
  | 'D' => some double
  | _ => none

@[simp] theorem ofLetter?_letter (p : Primitive) : ofLetter? p.letter = some p := by
  cases p <;> rfl

theorem letter_of_ofLetter? {c : Char} {p : Primitive} (h : ofLetter? c = some p) :
    p.letter = c := by
  unfold ofLetter? at h
  split at h <;> simp_all <;> subst h <;> rfl

/-- The guest language's keyword. -/
def keyword : Primitive → String
  | boolean => "boolean"
  | byte => "byte"
  | char => "char"
  | short => "short"
  | int => "int"
  | float => "float"
  | long => "long"
  | double => "double"

/-- Bytes of one element in native memory. -/
def width : Primitive → Nat
  | boolean | byte => 1
  | char | short => 2
  | int | float => 4
  | long | double => 8

theorem width_pos (p : Primitive) : 0 < p.width := by cases p <;> decide

/-- The types whose values are stored in 64 bits. -/
def isWide : Primitive → Bool
  | long | double => true
  | _ => false

/-- The types whose values are integers, truth values and code units included. -/
def isIntegral : Primitive → Bool
  | float | double => false
  | _ => true

end Primitive

namespace Kind

/-- The kind that a descriptor letter starts: a class name and an array are both references. -/
def ofLetter? (c : Char) : Option Kind :=
  match Primitive.ofLetter? c with
  | some p => some p
  | none =>
    if c = 'L' ∨ c = '[' then some object
    else if c = 'V' then some void
    else none

/-- The descriptor letter, `L` for every reference. -/
def letter : Kind → Char
  | primitive p => p.letter
  | object => 'L'
  | void => 'V'

@[simp] theorem ofLetter?_letter (k : Kind) : ofLetter? k.letter = some k := by
  cases k with
  | primitive p => simp [ofLetter?, letter]
  | object => rfl
  | void => rfl

/-- The guest language's word for the kind. -/
def name : Kind → String
  | primitive p => p.keyword
  | object => "Object"
  | void => "void"

def isPrimitive : Kind → Bool
  | primitive _ => true
  | _ => false

def isWide : Kind → Bool
  | primitive p => p.isWide
  | _ => false

def isIntegral : Kind → Bool
  | primitive p => p.isIntegral
  | _ => false

/-- Bytes of one element in native memory: a reference takes a pointer, `void` takes nothing. -/
def width : Kind → Nat
  | primitive p => p.width
  | object => 8
  | void => 0

end Kind

end GuestBoundary
