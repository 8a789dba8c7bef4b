import GuestBoundary.Interface.Call
import GuestBoundary.Script.GuestSteps

/-!
# Steps on the native side

What steps on the bridge do, and steps on what native code of the running thread holds; and how the
functions of the interface are called.  A step that needs a bridge or an attachment where there is
none is a mistake of the script.
-/

namespace GuestBoundary.Script

variable {ε α : Type}

/-! ## The bridge -/

/-- Changes the bridge, which the script holds. -/
def onBridge (f : Bridge → α × Bridge) : Action Host ε α := fun w =>
  match w.bridge with
  | some b =>
    if w.bridgeHeld then
      let (a, b) := f b
      .ok a { w with bridge := some b }
    else .halt .misuse w
  | none => .halt .misuse w

/-- The bridge, which the script holds. -/
def theBridge : Action Host ε Bridge := onBridge fun b => (b, b)

/-- Makes an environment the current one. -/
def useEnv (env : Option Env) : Action Host ε Unit := updateHost fun h => { h with env }

/-- A binding in words. -/
def summarizeBinding (r : Registry) (b : Binding) : BindingSummary :=
  ⟨r.describeMethod b.method, b.signature, b.address != 0⟩

/-- Reports the binding that came of a change of the bridge, or why none did. -/
def reportBinding (saveAs : Option String)
    (f : Registry → Bridge → Except BindError (Binding × Bridge)) : Action Host ε Report := do
  let r ← readRegistry id
  let result ← onBridge fun b =>
    match f r b with
    | .ok (binding, b) => (Except.ok binding, b)
    | .error e => (Except.error e, b)
  match result with
  | .error e => return .unbound e
  | .ok binding => do
    match saveAs with
    | some name => updateHost fun h => h.setBinding name binding
    | none => pure ()
    return .binding (summarizeBinding r binding)

/-- Detaches the running thread, which then has no environment. -/
def detachThread : Action Host ε Status := do
  let status ← Action.step World.detach
  if status = .ok then useEnv none else pure ()
  return status

/-- Runs a step on the bridge. -/
def BridgeStep.run (call : Invoker Host) : BridgeStep → Run Report
  | .attach => do
    let b ← theBridge
    let env ← Action.step fun w => w.attach b
    let same ← Action.read fun w => w.host.env == some env
    useEnv (some env)
    return .attached same
  | .detach => return .status (← detachThread)
  | .getEnv requested => Action.read fun w =>
    match w.getEnv requested with
    | .ok _ => .environment
    | .error status => .status status
  | .useHome => do
    let home ← Action.read fun w => w.host.home
    useEnv home
    let answer ← Interface.callFunction call home .getVersion []
    return .number answer.returned.word.toInt64.toInt
  | .summary => do
    let b ← theBridge
    let findsRoot ← readRegistry fun r => (r.find? CoreClass.object.name).isSome
    return .bridge ⟨b.config, b.signatures.size, b.bindings.length, b.globals.limit, findsRoot⟩
  | .drop => do
    let status ← detachThread
    Action.update fun w => World.releaseBridge { w with bridgeHeld := false }
    return .status status
  | .register owner name descriptor function saveAs => do
    let c ← classNamed owner
    let address ← wordOf function
    reportBinding saveAs fun r b => b.register r c name descriptor address
  | .addSymbol symbol function => do
    let address ← wordOf function
    onBridge fun b => ((), b.addSymbol symbol address)
    return .done
  | .unregister owner => do
    let c ← classNamed owner
    let r ← readRegistry id
    let n ← onBridge fun b => b.unregister r c
    return .number n
  | .bindingOf m => do
    let m ← methodNamed m
    let b ← theBridge
    let r ← readRegistry id
    match b.binding? r m with
    | some binding => return .binding (summarizeBinding r binding)
    | none => return .nothing
  | .bind m => do
    let m ← methodNamed m
    reportBinding none fun r b => b.resolve r m
  | .checkTarget binding m => do
    let m ← methodNamed m
    match ← Action.read fun w => w.host.bindings.lookup binding with
    | none => Action.halt .misuse
    | some binding =>
      match ← readRegistry fun r => binding.checkTarget r m with
      | .ok () => return .done
      | .error e => return .unbound e
  | .loadLibrary path => return .unbound (.library path)

/-! ## Attached threads -/

/-- The attachment of the running thread. -/
def theAttachment : Action Host ε Attachment := do
  match ← Action.read World.attachment with
  | some a => return a
  | none => Action.halt .misuse

/-- The handle in a word. -/
def handleOf (t : WordTerm) : Action Host ε Handle := do
  let w ← wordOf t
  return ⟨w⟩

/-- Runs a step on what native code of the running thread holds. -/
def ContextStep.run (saveAs : Option String) : ContextStep → Run Report
  | .newLocal object saveHandle => do
    let a ← theAttachment
    let o ← objectOrNull object
    match a.locals.create o with
    | .ok (h, locals) => do
      Action.update fun w => w.setAttachment (some { a with locals })
      keepWord saveHandle h.raw
      return .handle h
    | .error e => return .unallocated e
  | .resolve reference => do
    discard theAttachment
    let h ← handleOf reference
    let o ← Action.read fun w => w.resolve h
    keepObject saveAs o
    Action.read fun w => .object (describeOption w resultDepth o)
  | .refKind reference => do
    discard theAttachment
    let h ← handleOf reference
    Action.read fun w => .refKind (w.refKind h)
  | .copyWord word name => do
    keepWord (some name) (← wordOf word)
    return .done
  | .raise f => do
    discard theAttachment
    Interface.raise f
    return .done
  | .conversion => do
    let b ← theBridge
    return .conversion b.config.conversion
  | .read buffer type => do
    let b ← theBridge
    let a ← wordOf buffer
    match b.buffers.contents a with
    | .ok bytes => return .elements type bytes
    | .error v => return .violation v
  | .write buffer type start bytes => do
    let a ← wordOf buffer
    let b ← theBridge
    match b.buffers.contents a with
    | .ok old => do
      onBridge fun b =>
        ((), { b with
          buffers := b.buffers.store a (Elements.splice old (start * type.width) bytes) })
      return .done
    | .error _ => Action.halt .misuse

/-! ## Calls of the interface -/

/-- The part of a word that a value of a kind takes. -/
def lowBytes (k : Kind) (w : UInt64) : UInt64 :=
  UInt64.ofNat (w.toNat % (1 <<< (8 * k.width)))

/-- A slot of an argument list. -/
def slotOf (slot : Kind × WordTerm) : Action Host ε Slot := do
  let w ← wordOf slot.2
  return lowBytes slot.1 w

/-- An entry of a list of native methods. -/
def entryOf (e : EntryTerm) : Action Host ε Interface.NativeEntry := do
  let function ← wordOf e.function
  return ⟨e.name.map Interface.textBytes, e.descriptor.map Interface.textBytes, function⟩

/-- The argument that an operand stands for. -/
def argumentOf : Operand → Action Host ε Interface.Argument
  | .handle t => do return .handle (← handleOf t)
  | .member t => do return .member (← wordOf t)
  | .text bytes => return .text (bytes.map Interface.textBytes)
  | .primitive type t => do return .primitive (Value.ofWord type (← wordOf t))
  | .arguments none => return .arguments none
  | .arguments (some slots) => do return .arguments (some (← slots.mapM slotOf))
  | .copyFlag present => return .copyFlag present
  | .buffer t => do return .buffer (← wordOf t)
  | .target _ count => return .target count.isSome
  | .source bytes => return .source bytes
  | .natives none => return .natives none
  | .natives (some entries) => do return .natives (some (← entries.mapM entryOf))

/-- The byte in which copies are noted, before and after one was noted. -/
def flagByte (copied : Bool) : UInt8 := if copied then 1 else 7

/-- What memory holds that nobody has written to. -/
def unwritten : UInt8 := 0x5a

/-- The byte in which a function noted whether it made a copy, if it was passed. -/
def flagAfter (operands : List Operand) (copied : Bool) : Option UInt8 :=
  if operands.any fun o => match o with
    | .copyFlag present => present
    | _ => false
  then some (flagByte copied)
  else none

/-- The elements looked at in the memory that was passed, if there was any. -/
def writtenAfter (operands : List Operand) (written : List UInt8) :
    Option (Primitive × List UInt8) :=
  operands.findSome? fun o =>
    match o with
    | .target type (some count) =>
      let size := count * type.width
      some (type, written.take size ++ List.replicate (size - written.length) unwritten)
    | _ => none

/-- Names a buffer that was returned. -/
def labelReturned : Interface.Returned → Action Host ε (Option String)
  | .buffer a => Action.step fun w =>
    let (label, host) := w.host.labelBuffer a
    (label, { w with host })
  | _ => return none

/-- The description of the object for which a returned handle stands. -/
def describeReturned (w : State) : Interface.Returned → Description
  | .handle h => describeOption w resultDepth (w.resolve h)
  | _ => .null

/-- Calls a function of the interface by name. -/
def callByName (call : Invoker Host) (name : String) (args : List Interface.Argument) :
    Action Host ε Interface.Answer := do
  let env ← Action.read fun w => w.host.env
  match Interface.lookup name with
  | .implemented f => Interface.callFunction call env f args
  | missing => Interface.callStub env (missing.stubName name)

/-- Calls a function of the interface and reports what came of it. -/
def runCall (call : Invoker Host) (name : String) (operands : List Operand)
    (saveAs : Option String) : Action Host ε Report := do
  let args ← operands.mapM argumentOf
  let answer ← callByName call name args
  keepWord saveAs answer.returned.word
  let label ← labelReturned answer.returned
  let object ← Action.read fun w => describeReturned w answer.returned
  return .called ⟨answer.returned, label, object, flagAfter operands answer.copied,
    writtenAfter operands answer.written⟩

end GuestBoundary.Script
