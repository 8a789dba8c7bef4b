import GuestBoundary.Class.Basic

/-!
# The registry of classes

All classes that were defined, in order.  A class is found by name, a member by looking through
the classes that its own class inherits from; a virtual call is bound through the table of virtual
methods.  Everything here only reads the registry.
-/

namespace GuestBoundary

/-- The classes defined so far, in the order of definition. -/
structure Registry where
  classes : Array Class

instance : Inhabited Class :=
  ⟨⟨"", .abstract, none, [], [], [], [], [], [], []⟩⟩

instance : Inhabited Field := ⟨⟨"", .primitive .int, false, 0⟩⟩

instance : Inhabited Method := ⟨⟨"", ⟨[], none⟩, false, .abstract, none⟩⟩

namespace Registry

def empty : Registry := ⟨#[]⟩

/-- How many classes there are. -/
def size (r : Registry) : Nat := r.classes.size

/-- The class with an id. -/
def get (r : Registry) (c : ClassId) : Class := r.classes[c.index]?.getD default

/-- The field that a reference names. -/
def field (r : Registry) (f : FieldRef) : Field := (r.get f.owner).fields[f.index]?.getD default

/-- The method that a reference names. -/
def method (r : Registry) (m : MethodRef) : Method :=
  (r.get m.owner).methods[m.index]?.getD default

/-- The internal name of a class. -/
def nameOf (r : Registry) (c : ClassId) : String := (r.get c).name

/-- The name of a class with points for slashes. -/
def dottedName (r : Registry) (c : ClassId) : String := (r.get c).dottedName

/-- The class of a name. -/
def find? (r : Registry) (name : String) : Option ClassId :=
  (r.classes.findIdx? fun c => c.name == name).map ClassId.mk

/-- The method in words. -/
def describeMethod (r : Registry) (m : MethodRef) : String :=
  let method := r.method m
  "Method(" ++ r.nameOf m.owner ++ "." ++ method.name ++ method.descriptor ++ ")"

/-- The field in words. -/
def describeField (r : Registry) (f : FieldRef) : String := (r.field f).describe

/-! ## Subtypes -/

/-- Whether `a` is `b` or inherits from it, looking into element classes `depth` times: every
class inherits from the root, and a reference array from the arrays of what its elements inherit
from. -/
def inheritsWithin (r : Registry) : Nat → ClassId → ClassId → Bool
  | 0, _, _ => false
  | depth + 1, a, b =>
    (r.get b).isRoot || (r.get a).methodOrder.any fun s =>
      s == b ||
        match (r.get s).element?, (r.get b).element? with
        | some x, some y => inheritsWithin r depth x y
        | _, _ => false

/-- Whether `a` is `b` or a subtype of it.  Element classes are defined before their array
classes, so no class has more levels of elements than its place in the registry. -/
def isSubclass (r : Registry) (a b : ClassId) : Bool := r.inheritsWithin (a.index + 1) a b

/-! ## Members -/

/-- The field with a name and a descriptor that a class declares. -/
def declaredField? (r : Registry) (c : ClassId) (name descriptor : String) : Option FieldRef :=
  ((r.get c).fields.findIdx? fun f => f.hasSignature name descriptor).map (FieldRef.mk c)

/-- The method with a name and a descriptor that a class declares. -/
def declaredMethod? (r : Registry) (c : ClassId) (name descriptor : String) : Option MethodRef :=
  ((r.get c).methods.findIdx? fun m => m.hasSignature name descriptor).map (MethodRef.mk c)

/-- The first field with a name and a descriptor that a class declares or inherits. -/
def findField? (r : Registry) (c : ClassId) (name descriptor : String) : Option FieldRef :=
  (r.get c).fieldOrder.findSome? fun s => r.declaredField? s name descriptor

/-- The first method with a name and a descriptor that a class declares or inherits. -/
def findMethod? (r : Registry) (c : ClassId) (name descriptor : String) : Option MethodRef :=
  (r.get c).methodOrder.findSome? fun s => r.declaredMethod? s name descriptor

/-- The field that a name and a descriptor stand for, static or not as asked. -/
def resolveField (r : Registry) (c : ClassId) (name descriptor : String) (isStatic : Bool) :
    Except GuestFault FieldRef :=
  match (r.findField? c name descriptor).filter fun f => (r.field f).isStatic == isStatic with
  | some f => .ok f
  | none => .error ⟨.noSuchField, name⟩

/-- The method that a name and a descriptor stand for, static or not as asked. -/
def resolveMethod (r : Registry) (c : ClassId) (name descriptor : String) (isStatic : Bool) :
    Except GuestFault MethodRef :=
  match (r.findMethod? c name descriptor).filter fun m => (r.method m).isStatic == isStatic with
  | some m => .ok m
  | none => .error ⟨.noSuchMethod, name ++ descriptor⟩

/-- The static initializer that a class declares. -/
def initializer? (r : Registry) (c : ClassId) : Option MethodRef :=
  (r.get c).initializer?.map (MethodRef.mk c)

/-! ## Dispatch -/

/-- The virtual method of a class with the name and type of `m`: the one at the same place of the
table, if it is such a one, or else the first one. -/
def selectVirtual? (r : Registry) (c : ClassId) (m : MethodRef) : Option MethodRef :=
  let vtable := (r.get c).vtable
  let fits := fun n : MethodRef => (r.method n).sameSignature (r.method m)
  match (((r.method m).vtableIndex.bind fun i => vtable[i]?).filter fits) with
  | some n => some n
  | none => vtable.find? fits

/-- The method that runs when `m` is called on an object of class `c`. -/
def dispatch (r : Registry) (c : ClassId) (m : MethodRef) : Except GuestFault MethodRef :=
  if !(r.method m).isVirtual then .ok m
  else if r.isSubclass c m.owner then .ok ((r.selectVirtual? c m).getD m)
  else
    .error ⟨.illegalArgument, r.dottedName c ++ " is not a subtype of " ++ r.dottedName m.owner⟩

end Registry

end GuestBoundary
