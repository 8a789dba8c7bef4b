import GuestBoundary.Guest.Throwable

/-!
# The first classes

A run starts with the core classes and with one throwable class per kind of fault.  The core
classes come first and in their fixed order, so that `CoreClass.id` names them.
-/

namespace GuestBoundary

namespace CoreClass

/-- A method of a core class. -/
def method (name descriptor : String) (what : Intrinsic) : MethodSpec :=
  ⟨name, descriptor, false, .intrinsic what⟩

def superclass? : CoreClass → Option CoreClass
  | object => none
  | exception | error => some throwable
  | runtimeException => some exception
  | _ => some object

def fields : CoreClass → List FieldSpec
  | throwable => [⟨World.messageField, World.messageDescriptor, false⟩]
  | _ => []

def methods : CoreClass → List MethodSpec
  | object =>
    [method Method.constructorName "()V" .nothing,
      method "hashCode" "()I" .identity,
      method "equals" "(Ljava/lang/Object;)Z" .same]
  | string => [method "length" "()I" .length]
  | throwable =>
    [method Method.constructorName "()V" .nothing,
      method Method.constructorName "(Ljava/lang/String;)V" .setMessage,
      method "getMessage" "()Ljava/lang/String;" .message,
      method "printStackTrace" "()V" .report]
  | _ => []

def spec (c : CoreClass) : ClassSpec :=
  ⟨c.name, .concrete, c.superclass?.map name, [], c.fields, c.methods⟩

end CoreClass

namespace FaultKind

/-- The class that the throwable class of a kind of fault extends. -/
def superclass (k : FaultKind) : CoreClass :=
  if k.isError then .error
  else if k = .instantiation then .exception
  else .runtimeException

/-- The throwable class of a kind of fault. -/
def spec (k : FaultKind) : ClassSpec :=
  ⟨k.className, .concrete, some k.superclass.name, [], [], []⟩

end FaultKind

namespace World

variable {H : Type}

/-- How many calls may be in progress on a thread, unless something else is asked for. -/
def defaultCallDepth : Nat := 256

/-- No class, no object and one thread. -/
def bare (maxCallDepth : Nat) (memory : HostMemory) (host : H) : World H where
  maxCallDepth
  registry := .empty
  states := #[]
  started := []
  heap := .empty
  diagnostics := []
  trace := []
  named := []
  held := []
  linked := false
  bridge := none
  bridgeHeld := false
  memory
  blocks := 0
  attachments := 0
  thread := ⟨⟨0⟩, 0, none⟩
  waiting := []
  threads := 1
  host

/-- Defines a class that is known to be well formed. -/
def defineOrKeep (w : World H) (spec : ClassSpec) : World H :=
  match w.define spec with
  | .ok (_, w) => w
  | .error _ => w

/-- The classes that every run starts with. -/
def firstClasses : List ClassSpec :=
  CoreClass.all.map CoreClass.spec ++ FaultKind.all.map FaultKind.spec

/-- The state in which a run starts. -/
def start (maxCallDepth : Nat) (memory : HostMemory) (host : H) : World H :=
  firstClasses.foldl defineOrKeep (bare maxCallDepth memory host)

end World

end GuestBoundary
