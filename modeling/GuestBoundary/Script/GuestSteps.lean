import GuestBoundary.Guest.Evaluation
import GuestBoundary.Script.Host

/-!
# Steps on the guest side

What steps on classes, objects, invocations and throwables do.  They look classes up by name, which
may throw; a member that is not there is a mistake of the script.  `call` is how methods are
called.
-/

namespace GuestBoundary.Script

/-- What steps do: they come to a report, or guest code throws. -/
abbrev Run := Guest Host

/-! ## Names -/

/-- The class of a name. -/
def classNamed (name : String) : Run ClassId := Guest.findClass name

/-- The method of a name, static or not. -/
def methodNamed (m : MemberName) : Run MethodRef := do
  let c ← classNamed m.owner
  match ← Action.read fun w => w.registry.findMethod? c m.name m.descriptor with
  | some m => return m
  | none => Action.halt .misuse

/-- The field of a name, static or not. -/
def fieldNamed (f : MemberName) : Run FieldRef := do
  let c ← classNamed f.owner
  match ← Action.read fun w => w.registry.findField? c f.name f.descriptor with
  | some f => return f
  | none => Action.halt .misuse

/-- Reads the registry. -/
def readRegistry {ε α : Type} (f : Registry → α) : Action Host ε α :=
  Action.read fun w => f w.registry

def reportMethod (m : MethodRef) : Run Report :=
  readRegistry fun r => .method (summarizeMethod r m)

def reportField (f : FieldRef) : Run Report := readRegistry fun r => .field (summarizeField r f)

def reportClass (c : ClassId) : Run Report :=
  Action.read fun w => .classSummary (summarizeClass w c)

/-! ## Classes -/

/-- Runs a step on classes and members. -/
def ClassStep.run (call : Invoker Host) (saveAs : Option String) : ClassStep → Run Report
  | .define spec => do
    match ← Guest.define spec with
    | .ok _ => return .done
    | .error e => return .undefined e
  | .summary name => do reportClass (← classNamed name)
  | .isSubclass a b => do
    let a ← classNamed a
    let b ← classNamed b
    readRegistry fun r => .truth (r.isSubclass a b)
  | .findField f => do
    let c ← classNamed f.owner
    match ← readRegistry fun r => r.findField? c f.name f.descriptor with
    | some f => reportField f
    | none => return .nothing
  | .findMethod m => do
    let c ← classNamed m.owner
    match ← readRegistry fun r => r.findMethod? c m.name m.descriptor with
    | some m => reportMethod m
    | none => return .nothing
  | .resolveField f isStatic => do
    let c ← classNamed f.owner
    reportField (← Guest.resolveField c f.name f.descriptor isStatic)
  | .resolveMethod m isStatic => do
    let c ← classNamed m.owner
    reportMethod (← Guest.resolveMethod c m.name m.descriptor isStatic)
  | .selectVirtual name m => do
    let c ← classNamed name
    let m ← methodNamed m
    match ← readRegistry fun r => r.selectVirtual? c m with
    | some m => reportMethod m
    | none => return .nothing
  | .dispatch name m => do
    let c ← classNamed name
    let m ← methodNamed m
    let selected ← Guest.ofFault (← readRegistry fun r => r.dispatch c m)
    readRegistry fun r => .text (r.describeMethod selected)
  | .sameSignature a b => do
    let a ← methodNamed a
    let b ← methodNamed b
    readRegistry fun r => .truth ((r.method a).sameSignature (r.method b))
  | .prepare name => do
    Guest.initClass call (← classNamed name)
    return .done
  | .isPrepared name => do
    let c ← classNamed name
    Action.read fun w => .truth (isInitialized w c)
  | .getStatic name f => do
    let c ← classNamed name
    let f ← fieldNamed f
    answerValueOrNothing saveAs (← Action.read fun w => w.getStatic? c f)
  | .setStatic name f v => do
    let c ← classNamed name
    let f ← fieldNamed f
    let v ← valueOf v
    Action.step fun w =>
      match w.setStatic? c f v with
      | some w => (.truth true, w)
      | none => (.truth false, w)
  | .primitiveArray k => do reportClass (← Guest.arrayClass (.kind k))
  | .arrayOf element => do
    let c ← classNamed element
    reportClass (← Guest.arrayClass (.reference c))
  | .describe name => do
    let c ← classNamed name
    readRegistry fun r => .text (r.get c).describe

/-! ## Objects -/

/-- Everything about an object. -/
def inspectObject (w : State) (o : ObjectRef) : Inspection :=
  let object := w.object o
  { description := describeObject w inspectionDepth o
    text := object.text?
    units := object.units?
    arrayLength := object.elements?.map Elements.size
    mirrored := object.mirrored?.map w.registry.nameOf
    member := object.member?.map (memberText w) }

/-- Runs a step on objects. -/
def ObjectStep.run (call : Invoker Host) (saveAs : Option String) : ObjectStep → Run Report
  | .allocate owner => do
    let c ← classNamed owner
    answerObject saveAs (some (← Guest.allocate call c))
  | .construct owner descriptor args => do
    let c ← classNamed owner
    let args ← valuesOf args
    answerObject saveAs (some (← Guest.construct call c descriptor args))
  | .string units => do answerObject saveAs (some (← Guest.newString units))
  | .primitiveArray k n => do answerObject saveAs (some (← Guest.newPrimitiveArray k n))
  | .objectArray element n initial => do
    let c ← classNamed element
    let initial ← objectOrNull initial
    answerObject saveAs (some (← Guest.newObjectArray c n initial))
  | .getField object f => do
    let o ← objectNamed object
    let f ← fieldNamed f
    answerValueOrNothing saveAs (← Action.read fun w => w.getField? o f)
  | .setField object f v => do
    let o ← objectNamed object
    let f ← fieldNamed f
    let v ← valueOf v
    Action.step fun w =>
      match w.setField? o f v with
      | some w => (.truth true, w)
      | none => (.truth false, w)
  | .isInstance object name => do
    let o ← objectNamed object
    let c ← classNamed name
    Action.read fun w => .truth (w.isInstance o c)
  | .inspect object => do
    let o ← objectNamed object
    Action.read fun w => .inspection (inspectObject w o)
  | .identity object => do
    let o ← objectNamed object
    Action.read fun w => .identity o.identity (identityText w o)
      (((Value.ofObject o).describe? w.className).getD "")
  | .same a b => do
    let a ← objectOrNull a
    let b ← objectOrNull b
    return .truth (a == b)
  | .drop object => Action.step fun w =>
    (.truth (w.named.lookup object).isSome, w.forget object)
  | .mirror name => do
    let c ← classNamed name
    answerObject saveAs (some (← Guest.mirror c))
  | .reflectMethod m => do
    let m ← methodNamed m
    answerObject saveAs (some (← Guest.reflectMethod m))
  | .reflectField f => do
    let f ← fieldNamed f
    answerObject saveAs (some (← Guest.reflectField f))

/-! ## Invocation -/

/-- Runs a step that runs guest code. -/
def InvocationStep.run (call : Invoker Host) (saveAs : Option String) :
    InvocationStep → Run Report
  | .evaluate e => do answerValue saveAs (← Guest.evaluate call none [] e)
  | .callStatic m args => do
    let args ← valuesOf args
    answerValue saveAs (← Guest.callStatic call m.owner m.name m.descriptor args)
  | .callVirtual m object args => do
    let m ← methodNamed m
    let o ← objectNamed object
    let args ← valuesOf args
    answerValue saveAs (← Guest.callVirtual call m o args)
  | .call m object args => do
    let m ← methodNamed m
    let o ← objectOrNull object
    let args ← valuesOf args
    answerValue saveAs (← call m o args)

/-! ## Throwables -/

/-- Runs a step on throwables. -/
def ThrowableStep.run (call : Invoker Host) (saveAs : Option String) : ThrowableStep → Run Report
  | .materialize f => do
    answerObject saveAs (some (← Action.step fun w => w.materialize f))
  | .create owner text => do
    let c ← classNamed owner
    answerObject saveAs (some (← Guest.newThrowable call c text))
  | .message object => do
    let o ← objectNamed object
    answerValue saveAs (← Action.read fun w => w.message o)
  | .describe object => do
    let o ← objectNamed object
    Action.read fun w => .text (w.describe o)
  | .diagnostics => Action.read fun w => .texts w.diagnostics
  | .maxCallDepth => Action.read fun w => .number w.maxCallDepth

end GuestBoundary.Script
