import GuestBoundary.Interface.Operand

/-!
# Raising

Native code raises by leaving a throwable pending, asks for the pending one, has it reported, or
clears it.  Reporting runs guest code, and leaves pending what was pending before.
-/

namespace GuestBoundary.Interface

open Entry

variable {H : Type}

/-- Makes the object of a handle the pending throwable. -/
def throw (h : Handle) : Entry H Unit := do
  let o ← require h "throwable"
  let w ← Action.world
  if w.isInstance o CoreClass.throwable.id then Action.update fun w => w.setPending o
  else fault .illegalArgument (w.dottedName o ++ " is not throwable")

/-- Makes a new throwable of a class the pending one. -/
def throwNew (call : Invoker H) (h : Handle) (message : Option (List UInt8)) :
    Entry H Unit := do
  let c ← classOf h
  let o ← guest (Guest.newThrowable call c (message.map Text.Modified.text))
  Action.update fun w => w.setPending o

/-- A new local reference to the pending throwable. -/
def exceptionOccurred : Entry H Handle := do
  let o ← Action.read World.pending
  newLocal o

/-- Has a throwable print itself. -/
def report (call : Invoker H) (o : ObjectRef) : Guest H Value := do
  let c ← Action.read fun w => w.classOf o
  let m ← Guest.resolveMethod c "printStackTrace" "()V" false
  let selected ← Guest.dispatch o m
  call selected (some o) []

/-- Has the pending throwable print itself, whatever comes of that. -/
def exceptionDescribe (call : Invoker H) : Entry H Unit := do
  match ← Action.read World.pending with
  | none => return ()
  | some o => do
    Action.update fun w => w.updatePending Pending.clear
    discard (Action.holding [o] (report call o).result)
    Action.update fun w => w.updatePending (Pending.restore (some o))

/-- Clears the pending throwable. -/
def exceptionClear : Entry H Unit := Action.update fun w => w.updatePending Pending.clear

/-- Whether a throwable is pending. -/
def exceptionCheck : Entry H Bool := Action.read fun w => w.pending.isSome

/-- Ends the run. -/
def fatalError (message : Option (List UInt8)) : Entry H Unit :=
  violation (.requested ((message.map Text.Modified.text).getD ""))

end GuestBoundary.Interface
