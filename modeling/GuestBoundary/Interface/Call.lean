import GuestBoundary.Interface.ArrayAccess
import GuestBoundary.Interface.ClassAccess
import GuestBoundary.Interface.FieldAccess
import GuestBoundary.Interface.Locking
import GuestBoundary.Interface.MemberObjects
import GuestBoundary.Interface.MethodAccess
import GuestBoundary.Interface.Raising
import GuestBoundary.Interface.References
import GuestBoundary.Interface.Registration
import GuestBoundary.Interface.StringAccess

/-!
# Calls of the interface

`perform` does what a function says with the arguments that it was passed.  `guarded` stands around
it: native code cannot be thrown at, so whatever goes wrong leaves a throwable pending and the
function answers its failure; only misuse of the interface itself ends the run.
-/

namespace GuestBoundary.Interface

variable {H : Type}

/-! ## Answers -/

def answerUnit (a : Entry H Unit) : Entry H Answer := do
  a
  return .plain .nothing

def answerStatus (a : Entry H Unit) : Entry H Answer := do
  a
  return .plain (.status .ok)

def answerHandle (a : Entry H Handle) : Entry H Answer := do
  let h ← a
  return .plain (.handle h)

def answerMember (a : Entry H UInt64) : Entry H Answer := do
  let id ← a
  return .plain (.member id)

def answerBool (a : Entry H Bool) : Entry H Answer := do
  let b ← a
  return .plain (.boolean b)

def answerInt (a : Entry H Int32) : Entry H Answer := do
  let n ← a
  return .plain (.primitive (.int n))

def answerReturned (a : Entry H Returned) : Entry H Answer := do
  let r ← a
  return .plain r

/-- A buffer that is a copy. -/
def answerCopy (present : Bool) (a : Entry H Address) : Entry H Answer := do
  let buffer ← a
  return ⟨.buffer buffer, present, []⟩

/-- Bytes for the memory that was passed. -/
def answerBytes (a : Entry H (List UInt8)) : Entry H Answer := do
  let bytes ← a
  return ⟨.nothing, false, bytes⟩

/-! ## Functions -/

/-- What a function does with its arguments, where methods are called as `call` says. -/
def perform (call : Invoker H) (f : Function) (args : List Argument) : Entry H Answer :=
  match f, args with
  | .getVersion, [] => do
    let b ← Entry.bridge
    return .plain (.primitive (.int b.config.version.code))
  | .isVirtualThread, [.handle _] => return .plain (.boolean false)
  | .newGlobalRef, [.handle h] => answerHandle (newGlobalRef h)
  | .deleteGlobalRef, [.handle h] => answerUnit (deleteGlobal .global "global" h)
  | .newWeakGlobalRef, [.handle h] => answerHandle (newWeakGlobalRef h)
  | .deleteWeakGlobalRef, [.handle h] => answerUnit (deleteGlobal .weakGlobal "weak global" h)
  | .newLocalRef, [.handle h] => answerHandle (newLocalRef h)
  | .deleteLocalRef, [.handle h] => answerUnit (deleteLocalRef h)
  | .pushLocalFrame, [.primitive (.int n)] => answerStatus (pushLocalFrame n)
  | .popLocalFrame, [.handle h] => answerHandle (popLocalFrame h)
  | .ensureLocalCapacity, [.primitive (.int n)] => answerStatus (ensureLocalCapacity n)
  | .isSameObject, [.handle a, .handle b] => answerBool (isSameObject a b)
  | .getObjectRefType, [.handle h] => do
    let k ← getObjectRefType h
    return .plain (.refKind k)
  | .throw, [.handle h] => answerStatus (throw h)
  | .throwNew, [.handle h, .text message] => answerStatus (throwNew call h message)
  | .exceptionOccurred, [] => answerHandle exceptionOccurred
  | .exceptionDescribe, [] => answerUnit (exceptionDescribe call)
  | .exceptionClear, [] => answerUnit exceptionClear
  | .exceptionCheck, [] => answerBool exceptionCheck
  | .fatalError, [.text message] => answerUnit (fatalError message)
  | .findClass, [.text name] => answerHandle (findClass call name)
  | .getSuperclass, [.handle h] => answerHandle (getSuperclass h)
  | .isAssignableFrom, [.handle a, .handle b] => answerBool (isAssignableFrom a b)
  | .getObjectClass, [.handle h] => answerHandle (getObjectClass h)
  | .isInstanceOf, [.handle a, .handle b] => answerBool (isInstanceOf a b)
  | .allocObject, [.handle h] => answerHandle (allocObject call h)
  | .newObject, [.handle h, .member id, .arguments slots] =>
    answerHandle (newObject call h id slots)
  | .getMethodId mode, [.handle h, .text name, .text descriptor] =>
    answerMember (getMethodId call mode h name descriptor)
  | .call .virtual k, [.handle h, .member id, .arguments slots] =>
    answerReturned do Entry.returned k (← callMethod call (.virtual h) id slots)
  | .call .nonvirtual k, [.handle h, .handle c, .member id, .arguments slots] =>
    answerReturned do Entry.returned k (← callMethod call (.nonvirtual h c) id slots)
  | .call .static k, [.handle c, .member id, .arguments slots] =>
    answerReturned do Entry.returned k (← callMethod call (.static c) id slots)
  | .getFieldId mode, [.handle h, .text name, .text descriptor] =>
    answerMember (getFieldId call mode h name descriptor)
  | .getField .perObject k, [.handle h, .member id] => answerReturned (getInstanceField k h id)
  | .getField .static k, [.handle h, .member id] => answerReturned (getStaticField call k h id)
  | .setField .perObject _, [.handle h, .member id, value] =>
    answerUnit (setInstanceField h id value)
  | .setField .static _, [.handle h, .member id, value] =>
    answerUnit (setStaticField call h id value)
  | .newString, [.source units, .primitive (.int n)] => answerHandle (newString units n)
  | .getStringLength, [.handle h] => answerInt (getStringLength h)
  | .getStringChars, [.handle h, .copyFlag present] => answerCopy present (getStringChars h)
  | .releaseStringChars, [.handle _, .buffer a] => answerUnit (Entry.releaseBuffer a)
  | .newStringUtf, [.text bytes] => answerHandle (newStringUtf bytes)
  | .getStringUtfLength, [.handle h] => answerInt (getStringUtfLength h)
  | .getStringUtfLengthAsLong, [.handle h] => do
    let n ← getStringUtfLengthAsLong h
    return .plain (.primitive (.long n))
  | .getStringUtfChars, [.handle h, .copyFlag present] =>
    answerCopy present (getStringUtfChars h)
  | .releaseStringUtfChars, [.handle _, .buffer a] => answerUnit (Entry.releaseBuffer a)
  | .getStringRegion, [.handle h, .primitive (.int start), .primitive (.int n),
      .target present] => answerBytes (getStringRegion h start n present)
  | .getStringUtfRegion, [.handle h, .primitive (.int start), .primitive (.int n),
      .target present] => answerBytes (getStringUtfRegion h start n present)
  | .getStringCritical, [.handle h, .copyFlag present] => answerCopy present (getStringChars h)
  | .releaseStringCritical, [.handle _, .buffer a] => answerUnit (Entry.releaseBuffer a)
  | .getArrayLength, [.handle h] => answerInt (getArrayLength h)
  | .newObjectArray, [.primitive (.int n), .handle element, .handle initial] =>
    answerHandle (newObjectArray n element initial)
  | .getObjectArrayElement, [.handle h, .primitive (.int i)] =>
    answerHandle (getObjectArrayElement h i)
  | .setObjectArrayElement, [.handle h, .primitive (.int i), .handle value] =>
    answerUnit (setObjectArrayElement h i value)
  | .newArray p, [.primitive (.int n)] => answerHandle (newArray p n)
  | .getArrayElements p, [.handle h, .copyFlag present] =>
    answerCopy present (getElements (some p) h)
  | .releaseArrayElements p, [.handle h, .buffer a, .primitive (.int mode)] =>
    answerUnit (releaseElements (some p) h a mode)
  | .getArrayRegion p, [.handle h, .primitive (.int start), .primitive (.int n),
      .target present] => answerBytes (getArrayRegion p h start n present)
  | .setArrayRegion p, [.handle h, .primitive (.int start), .primitive (.int n),
      .source bytes] => answerUnit (setArrayRegion p h start n bytes)
  | .getPrimitiveArrayCritical, [.handle h, .copyFlag present] =>
    answerCopy present (getElements none h)
  | .releasePrimitiveArrayCritical, [.handle h, .buffer a, .primitive (.int mode)] =>
    answerUnit (releaseElements none h a mode)
  | .registerNatives, [.handle h, .natives entries, .primitive (.int n)] =>
    answerStatus (registerNatives h entries n)
  | .unregisterNatives, [.handle h] => answerStatus (unregisterNatives h)
  | .monitorEnter, [.handle h] => answerStatus (monitorEnter h)
  | .monitorExit, [.handle h] => answerStatus (monitorExit h)
  | .fromReflectedMethod, [.handle h] => answerMember (fromReflectedMethod h)
  | .fromReflectedField, [.handle h] => answerMember (fromReflectedField h)
  | .toReflectedMethod, [.handle h, .member id, .primitive (.boolean isStatic)] =>
    answerHandle (toReflectedMethod h id isStatic)
  | .toReflectedField, [.handle h, .member id, .primitive (.boolean isStatic)] =>
    answerHandle (toReflectedField h id isStatic)
  | _, _ => Action.halt .misuse

/-! ## The guard -/

/-- Leaves the throwable of a fault pending. -/
def raise {ε : Type} (f : GuestFault) : Action H ε Unit := Action.update fun w =>
  let (o, w) := w.materialize f
  w.setPending o

/-- What is said of a panic that came without a message. -/
def unknownPanic : String := "unknown panic"

/-- Runs the body of a function for native code: an error or a panic leaves a throwable pending,
and the function answers `failure`. -/
def contain {ε : Type} (name : String) (failure : Answer) (body : Entry H Answer) :
    Action H ε Answer := fun w =>
  match body w with
  | .ok a w => .ok a w
  | .error e w =>
    (do
      let o ← Entry.throwable e
      Action.update fun w => w.setPending o
      return failure : Action H ε Answer) w
  | .panic message w =>
    (do
      raise ⟨.internal, name ++ ": " ++ message.getD unknownPanic⟩
      return failure : Action H ε Answer) w
  | .halt reason w => .halt reason w

/-- Checks the environment that native code passes. -/
def checkEnv {ε : Type} (env : Option Env) : Action H ε Unit := do
  match env with
  | none => Action.halt (.violation .missingEnvironment)
  | some env => do
    let w ← Action.world
    if env.owner ≠ w.thread.id then
      Action.halt (.violation (.foreignEnvironment env.owner w.thread.id))
    else if w.attachment.any fun a => a.serial == env.serial then return ()
    else Action.halt .misuse

/-- Runs the body of a function in an environment. -/
def guarded {ε : Type} (env : Option Env) (name : String) (failure : Answer)
    (body : Entry H Answer) : Action H ε Answer := do
  checkEnv env
  contain name failure body

/-- Calls a function. -/
def callFunction {ε : Type} (call : Invoker H) (env : Option Env) (f : Function)
    (args : List Argument) : Action H ε Answer :=
  guarded env f.name (.plain f.failure) (perform call f args)

/-- Calls the stub of a name that no function has. -/
def callStub {ε : Type} (env : Option Env) (name : String) : Action H ε Answer :=
  guarded env name (.plain (.primitive (.long 0)))
    (Entry.fault .unsupportedOperation ("native interface function " ++ name ++
      " is not implemented"))

end GuestBoundary.Interface
