import GuestBoundary.Interface.Operand

/-!
# Fields

Native code asks for the number of a field and reads or writes the field by number.  A value read
goes through the conversion to the kind that the caller expects, a value written to the kind of the
field.  A static field belongs to the class that declares it, which gets initialized.
-/

namespace GuestBoundary.Interface

open Entry

variable {H : Type}

/-- The number of the field with a name and a descriptor. -/
def getFieldId (call : Invoker H) (mode : FieldMode) (h : Handle)
    (name descriptor : Option (List UInt8)) : Entry H UInt64 := do
  let c ← classOf h
  guest (Guest.initClass call c)
  let name ← text name "field name"
  let descriptor ← text descriptor "field signature"
  let f ← guest (Guest.resolveField c name descriptor mode.isStatic)
  fieldId f

/-- The fault that a class or an object has no slot for a field. -/
def missingField {α : Type} (owner : String) (f : FieldRef) : Entry H α := do
  let r ← Action.read World.registry
  fault .noSuchField (owner ++ " has no field " ++ (r.field f).name)

/-- The instance field of a number, which the class of an object must have inherited. -/
def instanceField (o : ObjectRef) (id : UInt64) : Entry H FieldRef := do
  let f ← field id
  let w ← Action.world
  if (w.registry.field f).isStatic then
    fault .illegalArgument (w.registry.describeField f ++ " is static")
  else if w.isInstance o f.owner then return f
  else
    fault .illegalArgument (w.dottedName o ++ " is not an instance of " ++
      w.registry.dottedName f.owner ++ ", which declares " ++ (w.registry.field f).name)

/-- The static field of a number, its class initialized. -/
def staticField (call : Invoker H) (h : Handle) (id : UInt64) : Entry H FieldRef := do
  discard (classOf h)
  let f ← field id
  let r ← Action.read World.registry
  if (r.field f).isStatic then do
    guest (Guest.initClass call f.owner)
    return f
  else fault .illegalArgument (r.describeField f ++ " is not static")

/-- A value as a field of kind `k` stores it. -/
def stored (k : Kind) (v : Value) : Entry H Value := do
  let b ← bridge
  ofConversion (b.config.conversion.convert v k .reject)

/-- The value of an instance field, as kind `k`. -/
def getInstanceField (k : Kind) (h : Handle) (id : UInt64) : Entry H Returned := do
  let o ← require h "object"
  let f ← instanceField o id
  let w ← Action.world
  match w.getField? o f with
  | some v => returned k v
  | none => missingField (w.dottedName o) f

/-- Writes an instance field. -/
def setInstanceField (h : Handle) (id : UInt64) (value : Argument) : Entry H Unit := do
  let o ← require h "object"
  let f ← instanceField o id
  let v ← passed value
  let r ← Action.read World.registry
  let v ← stored (r.field f).kind v
  let w ← Action.world
  match w.setField? o f v with
  | some w => Action.update fun _ => w
  | none => missingField (w.dottedName o) f

/-- The value of a static field, as kind `k`. -/
def getStaticField (call : Invoker H) (k : Kind) (h : Handle) (id : UInt64) :
    Entry H Returned := do
  let f ← staticField call h id
  let w ← Action.world
  match w.getStatic? f.owner f with
  | some v => returned k v
  | none => missingField (w.registry.dottedName f.owner) f

/-- Writes a static field. -/
def setStaticField (call : Invoker H) (h : Handle) (id : UInt64) (value : Argument) :
    Entry H Unit := do
  let f ← staticField call h id
  let v ← passed value
  let r ← Action.read World.registry
  let v ← stored (r.field f).kind v
  let w ← Action.world
  match w.setStatic? f.owner f v with
  | some w => Action.update fun _ => w
  | none => missingField (w.registry.dottedName f.owner) f

end GuestBoundary.Interface
