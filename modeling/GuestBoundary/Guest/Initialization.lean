import GuestBoundary.Guest.Allocation

/-!
# Initialization

A class is initialized once, before its first use: its superclass first, then its own static
initializer.  A thread that comes back to a class while it initializes it goes on; a class whose
initialization failed cannot be used any more.  Allocation needs initialized classes, and making an
object runs a constructor on it.  `call` is how methods are called.
-/

namespace GuestBoundary.Guest

variable {H : Type}

/-- Initializes a class; `depth` bounds the superclasses that are looked at. -/
def initClassWithin (call : Invoker H) : Nat → ClassId → Guest H Unit
  | 0, _ => pure ()
  | depth + 1, c => do
    let w ← Action.world
    match (w.classState c).init with
    | .done => pure ()
    | .running thread =>
      if thread = w.thread.id then pure () else Action.halt (.deadlock (.initialization c))
    | .failed =>
      throwFault ⟨.noClassDefFound, "could not initialize class " ++ w.registry.dottedName c⟩
    | .untouched => do
      Action.update fun w => w.setInit c (.running w.thread.id)
      let attempt : Guest H Unit := do
        match (w.registry.get c).superclass with
        | some s => initClassWithin call depth s
        | none => pure ()
        match w.registry.initializer? c with
        | some m => do
          Action.update fun w => w.noteStart c
          discard (call m none [])
        | none => pure ()
      match ← attempt.result with
      | .ok () => Action.update fun w => w.setInit c .done
      | .error thrown => do
        Action.update fun w => w.setInit c .failed
        Action.fail thrown

/-- Initializes a class.  A superclass is defined before its subclasses, so no class has more
superclasses than its place in the registry. -/
def initClass (call : Invoker H) (c : ClassId) : Guest H Unit :=
  initClassWithin call (c.index + 1) c

/-- A new instance with every slot at its default; no constructor runs. -/
def allocate (call : Invoker H) (c : ClassId) : Guest H ObjectRef := do
  let w ← Action.world
  if (w.registry.get c).isInstantiable then do
    initClass call c
    Action.step fun w => w.newInstance c
  else throwFault ⟨.instantiation, w.registry.dottedName c⟩

/-- A new instance on which a constructor has run.  The arguments stay there while the class is
initialized. -/
def constructWith (call : Invoker H) (c : ClassId) (constructor : MethodRef) (args : List Value) :
    Guest H ObjectRef :=
  Action.holding (args.filterMap Value.object?) do
    let o ← allocate call c
    Action.holding [o] (discard (call constructor (some o) args))
    return o

/-- A new instance on which the constructor with a descriptor has run. -/
def construct (call : Invoker H) (c : ClassId) (descriptor : String) (args : List Value) :
    Guest H ObjectRef := do
  let constructor ← resolveMethod c Method.constructorName descriptor false
  constructWith call c constructor args

/-- A new throwable of a class, with a message or without one. -/
def newThrowable (call : Invoker H) (c : ClassId) (message : Option String) :
    Guest H ObjectRef := do
  let w ← Action.world
  if w.registry.isSubclass c CoreClass.throwable.id then do
    let argument ←
      match message with
      | some text => do
        let o ← newString (Text.units text)
        pure (Value.ofObject o)
      | none => pure .null
    construct call c "(Ljava/lang/String;)V" [argument]
  else throwFault ⟨.illegalArgument, w.registry.dottedName c ++ " is not a throwable class"⟩

end GuestBoundary.Guest
