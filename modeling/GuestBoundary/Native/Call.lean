import GuestBoundary.Guest.Allocation
import GuestBoundary.Native.Arguments
import GuestBoundary.Native.Attachment

/-!
# Calls of native methods

A call of a native method runs in a local frame of its own.  The receiver, or the class for a static
method, and the arguments that are references become local references of that frame; the other
arguments become words.  An object that the native function answers is looked up before the frame
is closed, and a throwable that it leaves pending is thrown.
-/

namespace GuestBoundary

/-- The call of a native function. -/
structure NativeCall where
  address : Address
  env : Env
  /-- The receiver, or the class for a static method. -/
  receiver : Handle
  /-- One word per argument: a reference is its handle, integers are extended by their sign. -/
  slots : List Slot

/-- How native functions run, where methods are called as the first argument says.  The answer is
the word that the function returns. -/
abbrev NativeCode (H : Type) := Invoker H → NativeCall → Action H Empty Slot

namespace Native

variable {H : Type}

/-- The word of an argument for a parameter. -/
def argument (k : Kind) (v : Value) : Entry H Slot := do
  let b ← Entry.bridge
  let v ← Entry.ofConversion (b.config.conversion.convert v k .zero)
  match v with
  | .reference o => do
    let h ← Entry.newLocal o
    return h.raw
  | v => return v.toBits.getD 0

/-- The words of the arguments, in order. -/
def arguments : List Kind → List Value → Entry H (List Slot)
  | k :: ks, v :: vs => do
    let slot ← argument k v
    let slots ← arguments ks vs
    return slot :: slots
  | _, _ => return []

/-- Calls the function of a binding in the innermost frame. -/
def callInFrame (native : NativeCode H) (call : Invoker H) (env : Env) (binding : Binding)
    (receiver : ObjectRef) (args : List Value) : Entry H Value := do
  let handle ← Entry.newLocal (some receiver)
  let slots ← arguments binding.signature.params args
  let word ← (native call ⟨binding.address, env, handle, slots⟩).noError
  Action.read fun w => Slot.read w.resolve binding.signature.result word

/-- The room that the frame of a call is asked for. -/
def frameCapacity (args : List Value) : Nat := max minLocals (args.length + 1)

/-- Calls the function of a binding in a frame of its own. -/
def callBound (native : NativeCode H) (call : Invoker H) (env : Env) (binding : Binding)
    (receiver : ObjectRef) (args : List Value) : Entry H Value := do
  Entry.pushFrame (frameCapacity args)
  let result ← (callInFrame native call env binding receiver args).result
  discard (Entry.popFrame none)
  let v ← Action.ofExcept result
  let taken ← Entry.onAttachment fun a =>
    let (taken, pending) := a.pending.take
    .ok (taken, { a with pending })
  match taken with
  | some o => Action.fail (.thrown o)
  | none => return v

/-- Runs a native method: binds it if need be and calls its function. -/
def runMethod (native : NativeCode H) (call : Invoker H) (env : Env) (m : MethodRef)
    (receiver : Option ObjectRef) (args : List Value) : Entry H Value := do
  let r ← Action.read World.registry
  let binding ← Entry.onBridge fun b => (b.resolve r m).mapError .bind
  let b ← Entry.bridge
  if b.config.checkCallTarget then
    Action.ofExcept ((binding.checkTarget r m).mapError .bind)
  else pure ()
  let receiver ←
    match receiver with
    | some o => pure o
    | none => Guest.mirror m.owner
  callBound native call env binding receiver args

/-- Runs a native method for guest code, on a thread that is attached if it was not yet. -/
def invoke (native : NativeCode H) (call : Invoker H) : Invoker H := fun m receiver args => do
  let w ← Action.world
  let missing := w.registry.describeMethod m
  match w.bridge with
  | none =>
    let reason := if w.linked then missing ++ ": native bridge is gone" else missing
    Guest.throwFault ⟨.unsatisfiedLink, reason⟩
  | some b => do
    let env ← Action.step fun w => w.attach b
    match ← (runMethod native call env m receiver args).result with
    | .ok v => return v
    | .error e => do
      let o ← Entry.throwable e
      Action.fail o

end Native

end GuestBoundary
