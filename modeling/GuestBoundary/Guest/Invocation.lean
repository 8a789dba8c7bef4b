import GuestBoundary.Guest.Evaluation
import GuestBoundary.Native.Call

/-!
# Invocation

A call of a method is refused when too many are in progress, when it has the wrong number of
arguments or no receiver to run on; a static method initializes its class first.  `invokeWith` is
one call, whose own calls run as `call` says; `invoke` closes the circle for calls that are nested
at most `fuel` deep.  How deep they can be is bounded by the state itself, except for the calls that
new threads make.
-/

namespace GuestBoundary.Guest

variable {H : Type}

/-- Runs an action as one more call in progress. -/
def inCall {ε α : Type} (a : Action H ε α) : Action H ε α := fun w =>
  let deeper := { w with thread := { w.thread with depth := w.thread.depth + 1 } }
  (a.andFinally fun w => { w with thread := { w.thread with depth := w.thread.depth - 1 } }) deeper

/-- Gets a method ready to run: a static one has its class initialized, any other one needs a
receiver. -/
def checkReceiver (call : Invoker H) (m : MethodRef) (receiver : Option ObjectRef) :
    Guest H Unit := do
  let method ← Action.read fun w => w.registry.method m
  if method.isStatic then initClass call m.owner
  else
    match receiver with
    | some _ => pure ()
    | none => throwFault ⟨.nullPointer, "null receiver for " ++ method.name⟩

/-- Runs the body of a method. -/
def runBody (native : NativeCode H) (call : Invoker H) (m : MethodRef)
    (receiver : Option ObjectRef) (args : List Value) : Guest H Value := do
  let r ← Action.read World.registry
  match (r.method m).body with
  | .code e => evaluate call receiver args e
  | .intrinsic what => runIntrinsic receiver args what
  | .native => Native.invoke native call m receiver args
  | .abstract => throwFault ⟨.abstractMethod, r.describeMethod m⟩

/-- One call of a method; `body` is how its body runs. -/
def callWith (call body : Invoker H) : Invoker H := fun m receiver args => do
  let w ← Action.world
  let method := w.registry.method m
  let arity := method.type.params.length
  if w.thread.depth ≥ w.maxCallDepth then
    throwFault ⟨.stackOverflow, s!"call depth exceeded {w.maxCallDepth}"⟩
  else
    Action.holding (receiver.toList ++ args.filterMap Value.object?) (inCall do
      if args.length = arity then
        checkReceiver call m receiver
        body m receiver args
      else
        throwFault ⟨.illegalArgument, method.name ++ method.descriptor ++
          s!" expects {arity} arguments, got {args.length}"⟩)

/-- One call of a method. -/
def invokeWith (native : NativeCode H) (call : Invoker H) : Invoker H :=
  callWith call (runBody native call)

/-- Calls a method; calls may be nested `fuel` deep. -/
def invoke (native : NativeCode H) : Nat → Invoker H
  | 0 => fun _ _ _ => Action.halt .outOfFuel
  | fuel + 1 => invokeWith (native) (invoke native fuel)

end GuestBoundary.Guest
