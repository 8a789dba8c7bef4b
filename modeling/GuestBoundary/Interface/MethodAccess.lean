import GuestBoundary.Interface.Operand

/-!
# Methods

Native code asks for the number of a method and calls the method by number: on an object with the
implementation that its class selects, on an object as the method stands, or without an object.
The result goes through the conversion to the kind that the caller expects.
-/

namespace GuestBoundary.Interface

open Entry

variable {H : Type}

/-- The number of the method with a name and a descriptor. -/
def getMethodId (call : Invoker H) (mode : FieldMode) (h : Handle)
    (name descriptor : Option (List UInt8)) : Entry H UInt64 := do
  let c ← classOf h
  guest (Guest.initClass call c)
  let name ← text name "method name"
  let descriptor ← text descriptor "method signature"
  let m ← guest (Guest.resolveMethod c name descriptor mode.isStatic)
  methodId m

/-- What a call is made on. -/
inductive CallTarget where
  | virtual (receiver : Handle)
  | nonvirtual (receiver owner : Handle)
  | static (owner : Handle)

def CallTarget.isStatic : CallTarget → Bool
  | static _ => true
  | _ => false

/-- Calls a method by number. -/
def callMethod (call : Invoker H) (target : CallTarget) (id : UInt64)
    (slots : Option (List Slot)) : Entry H Value := do
  let m ← method id
  let r ← Action.read World.registry
  if (r.method m).isStatic != target.isStatic then
    fault .illegalArgument (r.describeMethod m ++ " called as " ++
      if target.isStatic then "static" else "instance method")
  else
    let args ← arguments m slots
    match target with
    | .virtual receiver => do
      let o ← require receiver "receiver"
      let selected ← guest (Guest.dispatch o m)
      guest (call selected (some o) args)
    | .nonvirtual receiver owner => do
      let o ← require receiver "receiver"
      let c ← classOf owner
      let w ← Action.world
      if w.isInstance o c then guest (call m (some o) args)
      else
        fault .illegalArgument (w.dottedName o ++ " is not a " ++ w.registry.dottedName c)
    | .static owner => do
      discard (classOf owner)
      guest (call m none args)

/-- A local reference to a new instance on which the constructor of a number has run. -/
def newObject (call : Invoker H) (h : Handle) (id : UInt64) (slots : Option (List Slot)) :
    Entry H Handle := do
  let c ← classOf h
  let m ← method id
  let r ← Action.read World.registry
  if (r.method m).isConstructor then do
    let args ← arguments m slots
    let o ← guest (Guest.constructWith call c m args)
    newLocal (some o)
  else fault .illegalArgument (r.describeMethod m ++ " is not a constructor")

end GuestBoundary.Interface
