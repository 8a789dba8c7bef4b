import GuestBoundary.Guest.Throwable

/-!
# Objects and classes that come without guest code

Looking up a class or a member, making a string or an array and asking for the object that stands
for a class or a member run no guest code.
-/

namespace GuestBoundary.Guest

variable {H : Type}

/-! ## Classes and members -/

/-- The class that a name stands for. -/
def findClass (name : String) : Guest H ClassId := fun w =>
  match w.registry.findClass name with
  | .ok (c, r) => .ok c (w.withRegistry r)
  | .error f => throwFault f w

/-- Defines a class, or answers why there is none of it. -/
def define {ε : Type} (spec : ClassSpec) : Action H ε (Except DefineError ClassId) :=
  Action.step fun w =>
    match w.define spec with
    | .ok (c, w) => (.ok c, w)
    | .error e => (.error e, w)

/-- The array class with the given elements. -/
def arrayClass {ε : Type} (component : Component) : Action H ε ClassId := Action.step fun w =>
  let (c, r) := w.registry.arrayClass component
  (c, w.withRegistry r)

/-- The field that a name and a descriptor stand for, static or not as asked. -/
def resolveField (c : ClassId) (name descriptor : String) (isStatic : Bool) : Guest H FieldRef :=
  fun w => ofFault (w.registry.resolveField c name descriptor isStatic) w

/-- The method that a name and a descriptor stand for, static or not as asked. -/
def resolveMethod (c : ClassId) (name descriptor : String) (isStatic : Bool) : Guest H MethodRef :=
  fun w => ofFault (w.registry.resolveMethod c name descriptor isStatic) w

/-- The method that runs when `m` is called on an object. -/
def dispatch (o : ObjectRef) (m : MethodRef) : Guest H MethodRef :=
  fun w => ofFault (w.registry.dispatch (w.classOf o) m) w

/-! ## Objects -/

def newString {ε : Type} (units : List Text.Unit16) : Action H ε ObjectRef :=
  Action.step fun w => w.newString units

/-- A primitive array of zeros. -/
def newPrimitiveArray (k : Kind) (length : Int32) : Guest H ObjectRef := do
  if length < 0 then throwFault ⟨.negativeArraySize, toString length.toInt⟩
  else
    match k with
    | .primitive p =>
      let c ← arrayClass (.kind k)
      Action.step fun w => w.newObject c (.array (.zeros p length.toInt.toNat))
    | k => throwFault ⟨.illegalArgument, k.name ++ " is not a primitive kind"⟩

/-- A reference array with the same element everywhere. -/
def newObjectArray (element : ClassId) (length : Int32) (initial : Option ObjectRef) :
    Guest H ObjectRef := do
  if length < 0 then throwFault ⟨.negativeArraySize, toString length.toInt⟩
  else
    let w ← Action.world
    match initial with
    | some o =>
      if w.isInstance o element then pure ()
      else throwFault ⟨.arrayStore, w.dottedName o⟩
    | none => pure ()
    let c ← arrayClass (.reference element)
    Action.step fun w => w.newObject c (.array (.fill length.toInt.toNat initial))

/-- The object that stands for a class; it is made when it is first asked for. -/
def mirror {ε : Type} (c : ClassId) : Action H ε ObjectRef := Action.step fun w =>
  match (w.classState c).mirror with
  | some o => (o, w)
  | none =>
    let (o, w) := w.newObject CoreClass.classObject.id (.mirror c)
    (o, w.setClassState c { w.classState c with mirror := some o })

/-- A new object that stands for a method or a constructor. -/
def reflectMethod {ε : Type} (m : MethodRef) : Action H ε ObjectRef := Action.step fun w =>
  let c := if (w.registry.method m).isConstructor then CoreClass.reflectedConstructor
    else CoreClass.reflectedMethod
  w.newObject c.id (.member (.method m))

/-- A new object that stands for a field. -/
def reflectField {ε : Type} (f : FieldRef) : Action H ε ObjectRef := Action.step fun w =>
  w.newObject CoreClass.reflectedField.id (.member (.field f))

end GuestBoundary.Guest
