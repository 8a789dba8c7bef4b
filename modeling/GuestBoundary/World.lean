import GuestBoundary.Bridge
import GuestBoundary.Class.Definition
import GuestBoundary.Handle.Locals
import GuestBoundary.Heap.Basic
import GuestBoundary.Pending

/-!
# The state of a run

A `World` is everything that guest code and native code can change: classes and their static
fields, the heap, the bridge, and what each thread has of its own.  One thread runs at a time; the
ones that wait for it are kept in a list.  The embedding program has a part of its own, of any type
`H`, which nothing here looks into.
-/

namespace GuestBoundary

/-- How far the initialization of a class has come. -/
inductive InitState where
  | untouched
  /-- The static initializers are running on a thread. -/
  | running (thread : ThreadId)
  | done
  | failed
  deriving DecidableEq

/-- What changes about a class after its definition. -/
structure ClassState where
  /-- The values of the static fields. -/
  statics : List Value
  init : InitState
  /-- The object that stands for the class, once it was asked for. -/
  mirror : Option ObjectRef

/-- A class without static fields that needs no initialization. -/
def ClassState.ready : ClassState := ⟨[], .done, none⟩

/-- What a thread has while it is attached to the bridge. -/
structure Attachment where
  /-- Attachments are numbered. -/
  serial : Nat
  locals : Locals ObjectRef
  pending : Pending ObjectRef

/-- A thread. -/
structure Thread where
  id : ThreadId
  /-- The calls that are in progress on it. -/
  depth : Nat
  attachment : Option Attachment

/-- What native code passes to say on behalf of which attachment it calls. -/
structure Env where
  owner : ThreadId
  serial : Nat
  deriving DecidableEq

/-- How the host answers requests for memory: with the address of a block, if it grants one, for
each request by its number and its length in bytes. -/
abbrev HostMemory := Nat → Nat → Option Address

/-- A host that grants blocks one behind the other and none that is too long. -/
def HostMemory.growing : HostMemory := fun request length =>
  if length < Buffers.hostLimit then some (UInt64.ofNat (0x7f0000000000 + 16 * request)) else none

/-- The state of a run; `host` is the part of the embedding program. -/
structure World (H : Type) where
  /-- How many calls may be in progress on a thread. -/
  maxCallDepth : Nat
  registry : Registry
  states : Array ClassState
  /-- The classes whose initializers were called to initialize them, newest first; the program
  logs each. -/
  started : List ClassId
  heap : Heap
  /-- The throwables that were reported, oldest first. -/
  diagnostics : List String
  /-- What guest code left in the trace, oldest first. -/
  trace : List String
  /-- The references that the embedding program holds by name. -/
  named : List (String × Option ObjectRef)
  /-- The objects that calls in progress hold. -/
  held : List ObjectRef
  /-- Whether a bridge was put in charge of native methods. -/
  linked : Bool
  /-- The bridge, unless there never was one or it has been dropped. -/
  bridge : Option Bridge
  /-- Whether the embedding program still holds the bridge. -/
  bridgeHeld : Bool
  memory : HostMemory
  /-- How many blocks of memory were granted and entered. -/
  blocks : Nat
  /-- How many attachments there have been. -/
  attachments : Nat
  /-- The thread that runs. -/
  thread : Thread
  /-- The threads that wait for it, innermost first. -/
  waiting : List Thread
  /-- How many threads there have been. -/
  threads : Nat
  host : H

namespace World

variable {H : Type}

/-! ## Classes -/

/-- What has become of a class. -/
def classState (w : World H) (c : ClassId) : ClassState := w.states[c.index]?.getD .ready

def setClassState (w : World H) (c : ClassId) (s : ClassState) : World H :=
  { w with states := w.states.setIfInBounds c.index s }

/-- Takes over a registry with more classes, which need no initialization. -/
def withRegistry (w : World H) (r : Registry) : World H :=
  { w with
    registry := r
    states := w.states ++ Array.replicate (r.size - w.states.size) .ready }

def setInit (w : World H) (c : ClassId) (init : InitState) : World H :=
  w.setClassState c { w.classState c with init }

/-- Notes that the initializer of a class is called to initialize it. -/
def noteStart (w : World H) (c : ClassId) : World H := { w with started := c :: w.started }

/-- The initialization that a class needs when it is defined: none, if it has no initializer of its
own and its superclass is initialized already. -/
def firstState (w : World H) (c : Class) : InitState :=
  if c.declaresInitializer then .untouched
  else
    match c.superclass with
    | none => .done
    | some s => if (w.classState s).init = .done then .done else .untouched

/-- Defines a class. -/
def define (w : World H) (spec : ClassSpec) : Except DefineError (ClassId × World H) :=
  match w.registry.define spec with
  | .error e => .error e
  | .ok (c, r) =>
    let class' := r.get c
    .ok (c, (w.withRegistry r).setClassState c
      ⟨class'.staticKinds.map Value.default, w.firstState class', none⟩)

/-- The value of a static field, if the class declares it. -/
def getStatic? (w : World H) (c : ClassId) (f : FieldRef) : Option Value :=
  if f.owner = c ∧ (w.registry.field f).isStatic then
    (w.classState c).statics[(w.registry.field f).slot]?
  else none

/-- Puts a value into a static field, if the class declares it. -/
def setStatic? (w : World H) (c : ClassId) (f : FieldRef) (v : Value) : Option (World H) :=
  let state := w.classState c
  let slot := (w.registry.field f).slot
  if f.owner = c ∧ (w.registry.field f).isStatic = true ∧ slot < state.statics.length then
    some (w.setClassState c { state with statics := state.statics.set slot v })
  else none

/-! ## Objects -/

/-- The object that a reference names. -/
def object (w : World H) (o : ObjectRef) : Object := w.heap.get o

/-- The class of an object. -/
def classOf (w : World H) (o : ObjectRef) : ClassId := (w.object o).classId

/-- The internal name of an object's class. -/
def className (w : World H) (o : ObjectRef) : String := w.registry.nameOf (w.classOf o)

/-- The name of an object's class with points for slashes. -/
def dottedName (w : World H) (o : ObjectRef) : String := w.registry.dottedName (w.classOf o)

/-- Whether an object's class is `c` or a subtype of it. -/
def isInstance (w : World H) (o : ObjectRef) (c : ClassId) : Bool :=
  w.registry.isSubclass (w.classOf o) c

def setObject (w : World H) (o : ObjectRef) (object : Object) : World H :=
  { w with heap := w.heap.set o object }

/-- Adds an object. -/
def newObject (w : World H) (c : ClassId) (body : ObjectBody) : ObjectRef × World H :=
  let (o, heap) := w.heap.push ⟨c, body, .free⟩
  (o, { w with heap })

/-- The value in an object's slot of an instance field. -/
def getField? (w : World H) (o : ObjectRef) (f : FieldRef) : Option Value :=
  (w.object o).getField? (w.registry.field f)

/-- Puts a value into an object's slot of an instance field. -/
def setField? (w : World H) (o : ObjectRef) (f : FieldRef) (v : Value) : Option (World H) :=
  ((w.object o).setField? (w.registry.field f) v).map (w.setObject o)

/-! ## Names -/

/-- Forgets a name of the embedding program. -/
def forget (w : World H) (name : String) : World H :=
  { w with named := w.named.filter fun e => e.1 != name }

/-- Holds an object or null by a name. -/
def hold (w : World H) (name : String) (o : Option ObjectRef) : World H :=
  let w := w.forget name
  { w with named := (name, o) :: w.named }

/-! ## Threads -/

/-- The locals and the pending throwable of the thread that runs. -/
def attachment (w : World H) : Option Attachment := w.thread.attachment

def setAttachment (w : World H) (a : Option Attachment) : World H :=
  { w with thread := { w.thread with attachment := a } }

/-- Every thread. -/
def allThreads (w : World H) : List Thread := w.thread :: w.waiting

/-! ## References -/

/-- The objects that a class refers to. -/
def classObjects (s : ClassState) : List ObjectRef :=
  s.mirror.toList ++ s.statics.filterMap Value.object?

/-- The objects that an attachment refers to. -/
def attachmentObjects (a : Attachment) : List ObjectRef :=
  a.pending.slot.toList ++ a.locals.objects

/-- The objects that something outside the heap refers to. -/
def roots (w : World H) : List ObjectRef :=
  w.named.filterMap Prod.snd ++ w.held ++ w.states.toList.flatMap classObjects ++
    (w.allThreads.filterMap Thread.attachment).flatMap attachmentObjects ++
    (match w.bridge with
      | some b => b.globals.objects
      | none => [])

/-- Whether an object is still there. -/
def isAlive (w : World H) (o : ObjectRef) : Bool := w.heap.isAlive w.roots o

end World

end GuestBoundary
