import GuestBoundary.Action

/-!
# Throwables

A fault surfaces as a throwable of its class that keeps the message.  `World.materialize` makes it,
`World.describe` writes a throwable on one line, and `Guest.throwFault` throws it.
-/

namespace GuestBoundary

namespace World

variable {H : Type}

/-- The field in which throwables keep their message. -/
def messageField : String := "detailMessage"

/-- The descriptor of that field. -/
def messageDescriptor : String := "Ljava/lang/String;"

/-- The message of a throwable, null if it has none. -/
def message (w : World H) (o : ObjectRef) : Value :=
  ((w.registry.findField? (w.classOf o) messageField messageDescriptor).bind
    (w.getField? o)).getD .null

/-- Gives a throwable a message, if it has room for one. -/
def setMessage (w : World H) (o : ObjectRef) (v : Value) : World H :=
  ((w.registry.findField? (w.classOf o) messageField messageDescriptor).bind fun f =>
    w.setField? o f v).getD w

/-- A throwable on one line: its class and, if it has one, its message. -/
def describe (w : World H) (o : ObjectRef) : String :=
  match (w.message o).object?.bind fun m => (w.object m).text? with
  | some text => w.dottedName o ++ ": " ++ text
  | none => w.dottedName o

/-- Adds a string. -/
def newString (w : World H) (units : List Text.Unit16) : ObjectRef × World H :=
  w.newObject CoreClass.string.id (.string units)

/-- Adds an instance of a class with every slot at its default. -/
def newInstance (w : World H) (c : ClassId) : ObjectRef × World H :=
  w.newObject c (.slots ((w.registry.get c).layout.map Value.default))

/-- Makes the throwable of a fault, and then its message. -/
def materialize (w : World H) (f : GuestFault) : ObjectRef × World H :=
  let c := (w.registry.find? f.kind.className).getD CoreClass.throwable.id
  let (throwable, w) := w.newInstance c
  let (message, w) := w.newString (Text.units f.message)
  (throwable, w.setMessage throwable (.ofObject message))

end World

namespace Guest

variable {H α : Type}

/-- Throws a fault. -/
def throwFault (f : GuestFault) : Guest H α := fun w =>
  let (throwable, w) := w.materialize f
  .error throwable w

/-- Answers a value or throws, as told. -/
def ofFault : Except GuestFault α → Guest H α
  | .ok a => Action.answer a
  | .error f => throwFault f

end Guest

end GuestBoundary
