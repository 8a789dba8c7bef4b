import GuestBoundary.Guest.Initialization

/-!
# Evaluation of guest code

`evaluate` says what an expression does in a call with a given receiver and given arguments.  An
error of a part is an error of the whole.  The values of the parts of a list stay there until the
whole list is done, and so does a throwable while its handler runs.  `call` is how methods are
called.
-/

namespace GuestBoundary.Guest

variable {H : Type}

/-- The integer that a value is, or zero. -/
def intOf (v : Value) : Int32 := v.int?.getD 0

/-- Calls a static method. -/
def callStatic (call : Invoker H) (owner name descriptor : String) (args : List Value) :
    Guest H Value := do
  let c ← findClass owner
  let m ← resolveMethod c name descriptor true
  call m none args

/-- Calls the implementation of a method that the receiver's class selects. -/
def callVirtual (call : Invoker H) (m : MethodRef) (receiver : ObjectRef) (args : List Value) :
    Guest H Value := do
  let selected ← dispatch receiver m
  call selected (some receiver) args

/-- The static field that a class, a name and a descriptor stand for, its class initialized. -/
def staticField (call : Invoker H) (owner name descriptor : String) : Guest H FieldRef := do
  let c ← findClass owner
  let f ← resolveField c name descriptor true
  initClass call f.owner
  return f

mutual

/-- The value of an expression. -/
def evaluate (call : Invoker H) (receiver : Option ObjectRef) (args : List Value) :
    Expr → Guest H Value
  | .value v => pure v
  | .named name => Action.read fun w => .reference (w.named.lookup name).join
  | .string units => do
    let o ← newString units
    return .ofObject o
  | .argument i => pure (args[i]?.getD .void)
  | .this => pure (.reference receiver)
  | .sequence parts => do
    let values ← evaluateAll call receiver args parts
    return values.getLastD .void
  | .trace text => do
    Action.update fun w => { w with trace := w.trace ++ [text] }
    return .void
  | .add left right => do
    let a ← evaluate call receiver args left
    let b ← evaluate call receiver args right
    return .int (intOf a + intOf b)
  | .ifLess left right yes no => do
    let a ← evaluate call receiver args left
    let b ← evaluate call receiver args right
    if intOf a < intOf b then evaluate call receiver args yes else evaluate call receiver args no
  | .attempt body handler => do
    match ← (evaluate call receiver args body).result with
    | .ok v => return v
    | .error thrown => Action.holding [thrown] (evaluate call receiver args handler)
  | .getField name descriptor =>
    match receiver with
    | none => pure .void
    | some o => do
      let f ← resolveField (← Action.read fun w => w.classOf o) name descriptor false
      Action.read fun w => (w.getField? o f).getD .void
  | .putField name descriptor value =>
    match receiver with
    | none => pure .void
    | some o => do
      let f ← resolveField (← Action.read fun w => w.classOf o) name descriptor false
      let v ← evaluate call receiver args value
      Action.update fun w => (w.setField? o f v).getD w
      return .void
  | .getStatic owner name descriptor => do
    let f ← staticField call owner name descriptor
    Action.read fun w => (w.getStatic? f.owner f).getD .void
  | .putStatic owner name descriptor value => do
    let f ← staticField call owner name descriptor
    let v ← evaluate call receiver args value
    Action.update fun w => (w.setStatic? f.owner f v).getD w
    return .void
  | .callStatic owner name descriptor arguments => do
    let values ← evaluateAll call receiver args arguments
    callStatic call owner name descriptor values
  | .callVirtual target name descriptor arguments => do
    let target ← evaluate call receiver args target
    let values ← Action.holding target.object?.toList (evaluateAll call receiver args arguments)
    match target.object? with
    | none => return .void
    | some o => do
      let m ← resolveMethod (← Action.read fun w => w.classOf o) name descriptor false
      callVirtual call m o values
  | .callSpecial owner name descriptor arguments => do
    let c ← findClass owner
    let m ← resolveMethod c name descriptor false
    let values ← evaluateAll call receiver args arguments
    call m receiver values
  | .new owner descriptor arguments => do
    let c ← findClass owner
    let values ← evaluateAll call receiver args arguments
    let o ← construct call c descriptor values
    return .ofObject o
  | .throwFault kind message => throwFault ⟨kind, message⟩
  | .throwNew owner message => do
    let c ← findClass owner
    let o ← newThrowable call c message
    Action.fail o
  | .throwObject value => do
    let v ← evaluate call receiver args value
    match v.object? with
    | some o => Action.fail o
    | none => return .void
  | .panic message => Action.panic message

/-- The values of several expressions; each is kept while the ones after it are worked out. -/
def evaluateAll (call : Invoker H) (receiver : Option ObjectRef) (args : List Value) :
    List Expr → Guest H (List Value)
  | [] => pure []
  | e :: es => do
    let v ← evaluate call receiver args e
    let vs ← Action.holding v.object?.toList (evaluateAll call receiver args es)
    return v :: vs

end

/-- What a method of a basic class does. -/
def runIntrinsic (receiver : Option ObjectRef) (args : List Value) : Intrinsic → Guest H Value
  | .nothing => pure .void
  | .identity =>
    pure (.int (match receiver with
      | some o => Int32.ofNat o.identity
      | none => 0))
  | .same =>
    pure (.boolean (match receiver, args.head?.bind Value.object? with
      | some a, some b => a == b
      | _, _ => false))
  | .length => Action.read fun w =>
    .int (Int32.ofNat ((receiver.bind fun o => (w.object o).units?).getD []).length)
  | .setMessage => do
    match receiver, args with
    | some o, message :: _ => Action.update fun w => w.setMessage o message
    | _, _ => pure ()
    return .void
  | .message => Action.read fun w => (receiver.map w.message).getD .null
  | .report => do
    match receiver with
    | some o => Action.update fun w => { w with diagnostics := w.diagnostics ++ [w.describe o] }
    | none => pure ()
    return .void

end GuestBoundary.Guest
