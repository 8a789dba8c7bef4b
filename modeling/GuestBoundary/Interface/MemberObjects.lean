import GuestBoundary.Interface.Operand

/-!
# Reflection objects

A method or a field can be had as an object and from that object again.
-/

namespace GuestBoundary.Interface

open Entry

variable {H : Type}

/-- The member that the object of a handle stands for; `what` says which sort is wanted. -/
def memberOf (h : Handle) (what : String) : Entry H (ObjectRef × Option Member) := do
  let o ← require h what
  let w ← Action.world
  return (o, (w.object o).member?)

/-- The fault that an object does not stand for a member of the wanted sort. -/
def notReflected {α : Type} (o : ObjectRef) (what : String) : Entry H α := do
  let w ← Action.world
  fault .illegalArgument (w.dottedName o ++ " is not a reflected " ++ what)

/-- The number of the method that an object stands for. -/
def fromReflectedMethod (h : Handle) : Entry H UInt64 := do
  let (o, m) ← memberOf h "method"
  match m with
  | some (.method m) => methodId m
  | _ => notReflected o "method"

/-- The number of the field that an object stands for. -/
def fromReflectedField (h : Handle) : Entry H UInt64 := do
  let (o, m) ← memberOf h "field"
  match m with
  | some (.field f) => fieldId f
  | _ => notReflected o "field"

/-- Checks that a member is static or not as claimed and that a class has inherited it. -/
def checkOwner (c owner : ClassId) (isStatic claimed : Bool) (what : String) : Entry H Unit := do
  let r ← Action.read World.registry
  if isStatic != claimed then fault .illegalArgument (what ++ " static flag does not match")
  else if r.isSubclass c owner then return ()
  else fault .illegalArgument (what ++ " is not a member of " ++ r.dottedName c)

/-- A local reference to a new object that stands for a method of a class. -/
def toReflectedMethod (h : Handle) (id : UInt64) (isStatic : Bool) : Entry H Handle := do
  let c ← classOf h
  let m ← method id
  let r ← Action.read World.registry
  checkOwner c m.owner (r.method m).isStatic isStatic (r.describeMethod m)
  let o ← Guest.reflectMethod m
  newLocal (some o)

/-- A local reference to a new object that stands for a field of a class. -/
def toReflectedField (h : Handle) (id : UInt64) (isStatic : Bool) : Entry H Handle := do
  let c ← classOf h
  let f ← field id
  let r ← Action.read World.registry
  checkOwner c f.owner (r.field f).isStatic isStatic (r.describeField f)
  let o ← Guest.reflectField f
  newLocal (some o)

end GuestBoundary.Interface
