import GuestBoundary.Interface.Operand

/-!
# Classes and allocation

Finding classes, comparing them, and making objects without running a constructor.
-/

namespace GuestBoundary.Interface

open Entry

variable {H : Type}

/-- A local reference to the class of a name, which gets initialized. -/
def findClass (call : Invoker H) (name : Option (List UInt8)) : Entry H Handle := do
  let name ← text name "class name"
  let c ← guest (Guest.findClass name)
  guest (Guest.initClass call c)
  classLocal c

/-- A local reference to the superclass; null for interfaces and the root. -/
def getSuperclass (h : Handle) : Entry H Handle := do
  let c ← classOf h
  let definition ← Action.read fun w => w.registry.get c
  match definition.superclass with
  | some s => if definition.isInterface then return .null else classLocal s
  | none => return .null

/-- Whether values of the first class can be stored where the second one is expected. -/
def isAssignableFrom (sub sup : Handle) : Entry H Bool := do
  let a ← classOf sub
  let b ← classOf sup
  Action.read fun w => w.registry.isSubclass a b

/-- A local reference to the class of an object. -/
def getObjectClass (h : Handle) : Entry H Handle := do
  let o ← require h "object"
  let c ← Action.read fun w => w.classOf o
  classLocal c

/-- Whether an object is an instance of a class; null is one of every class. -/
def isInstanceOf (h classHandle : Handle) : Entry H Bool := do
  let c ← classOf classHandle
  match ← object h with
  | some o => Action.read fun w => w.isInstance o c
  | none => return true

/-- A local reference to a new instance with every slot at its default. -/
def allocObject (call : Invoker H) (h : Handle) : Entry H Handle := do
  let c ← classOf h
  let o ← guest (Guest.allocate call c)
  newLocal (some o)

end GuestBoundary.Interface
