import GuestBoundary.Class.Basic
import GuestBoundary.Elements
import GuestBoundary.Monitor

/-!
# The heap

An object has a class, a body and a monitor, and never moves: objects are numbered in the order of
their creation.  Objects are not reclaimed either; whether one is still there for weak references
is worked out from who refers to it.
-/

namespace GuestBoundary

/-- A member that a reflection object stands for. -/
inductive Member where
  | method (m : MethodRef)
  | field (f : FieldRef)
  deriving DecidableEq

/-- What an object holds. -/
inductive ObjectBody where
  /-- The values of its slots. -/
  | slots (values : List Value)
  | array (elements : Elements)
  | string (units : List Text.Unit16)
  /-- It stands for a class. -/
  | mirror (c : ClassId)
  /-- It stands for a member. -/
  | member (m : Member)
  deriving DecidableEq

/-- A guest object. -/
structure Object where
  classId : ClassId
  body : ObjectBody
  monitor : Monitor
  deriving DecidableEq

instance : Inhabited Object := ⟨⟨default, .slots [], .free⟩⟩

namespace Object

/-- The value in an instance field's slot, if there is such a slot. -/
def getField? (o : Object) (f : Field) : Option Value :=
  match o.body with
  | .slots values => if f.isStatic then none else values[f.slot]?
  | _ => none

/-- Puts a value into an instance field's slot, if there is such a slot. -/
def setField? (o : Object) (f : Field) (v : Value) : Option Object :=
  match o.body with
  | .slots values =>
    if f.isStatic = false ∧ f.slot < values.length then
      some { o with body := .slots (values.set f.slot v) }
    else none
  | _ => none

def elements? (o : Object) : Option Elements :=
  match o.body with
  | .array elements => some elements
  | _ => none

def units? (o : Object) : Option (List Text.Unit16) :=
  match o.body with
  | .string units => some units
  | _ => none

/-- The text of a string, with a replacement for each surrogate without its partner. -/
def text? (o : Object) : Option String := o.units?.map Text.ofUnits

def mirrored? (o : Object) : Option ClassId :=
  match o.body with
  | .mirror c => some c
  | _ => none

def member? (o : Object) : Option Member :=
  match o.body with
  | .member m => some m
  | _ => none

/-- The objects that an object refers to. -/
def references (o : Object) : List ObjectRef :=
  match o.body with
  | .slots values => values.filterMap Value.object?
  | .array (.references items) => items.filterMap id
  | _ => []

end Object

/-- All objects, in the order of creation. -/
structure Heap where
  objects : Array Object

namespace Heap

def empty : Heap := ⟨#[]⟩

/-- How many objects were created. -/
def size (h : Heap) : Nat := h.objects.size

/-- The object that a reference names. -/
def get (h : Heap) (o : ObjectRef) : Object := h.objects[o.index]?.getD default

/-- Adds an object. -/
def push (h : Heap) (o : Object) : ObjectRef × Heap := (⟨h.objects.size⟩, ⟨h.objects.push o⟩)

/-- Replaces an object. -/
def set (h : Heap) (o : ObjectRef) (object : Object) : Heap :=
  ⟨h.objects.setIfInBounds o.index object⟩

/-! ## Who is still there -/

/-- The objects that the given roots and the given objects refer to. -/
def targets (h : Heap) (roots kept : List ObjectRef) : List ObjectRef :=
  roots ++ kept.flatMap fun o => (h.get o).references

/-- Drops objects to which nobody refers until none is left, at most `rounds` times. -/
def settle (h : Heap) (roots : List ObjectRef) : Nat → List ObjectRef → List ObjectRef
  | 0, kept => kept
  | rounds + 1, kept =>
    let targets := h.targets roots kept
    let next := kept.filter fun o => targets.contains o
    if next.length = kept.length then kept else settle h roots rounds next

/-- The objects that are still there: the largest set each of whose members a root or a member
refers to.  Objects that refer to each other in a circle keep each other. -/
def survivors (h : Heap) (roots : List ObjectRef) : List ObjectRef :=
  h.settle roots h.size ((List.range h.size).map ObjectRef.mk)

/-- Whether an object is still there. -/
def isAlive (h : Heap) (roots : List ObjectRef) (o : ObjectRef) : Bool :=
  (h.survivors roots).contains o

end Heap

end GuestBoundary
