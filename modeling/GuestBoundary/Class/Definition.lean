import GuestBoundary.Class.Registry
import GuestBoundary.Descriptor.Parser

/-!
# Defining classes

A class is described by the names of its superclass and interfaces and by a list of members with
their descriptors.  `Registry.define` reads the descriptors, gives every field a slot, gives every
virtual method a place in the table and adds the class; `Registry.arrayClass` and
`Registry.findClass` add array classes when they are first asked for.  A definition that fails
adds nothing.
-/

namespace GuestBoundary

/-- A field of a class to be defined. -/
structure FieldSpec where
  name : String
  descriptor : String
  isStatic : Bool

/-- A method of a class to be defined. -/
structure MethodSpec where
  name : String
  descriptor : String
  isStatic : Bool
  body : Body

/-- The method that sets up the static fields of a class. -/
def MethodSpec.initializer (e : Expr) : MethodSpec :=
  ⟨Method.initializerName, "()V", true, .code (.sequence [e, .value .void])⟩

/-- An abstract method; those are never static. -/
def MethodSpec.abstract (name descriptor : String) : MethodSpec :=
  ⟨name, descriptor, false, .abstract⟩

/-- A class to be defined. -/
structure ClassSpec where
  name : String
  sort : ClassSort
  superclass : Option String
  interfaces : List String
  fields : List FieldSpec
  methods : List MethodSpec

/-- Why a class was not defined. -/
inductive DefineError where
  | descriptor (cause : DescriptorError)
  /-- A superclass or an interface that there is not. -/
  | unknownClass (name : String)
  | duplicate (name : String)
  /-- Two members of one name and one type. -/
  | duplicateMember (member : String)
  deriving DecidableEq

def DefineError.message : DefineError → String
  | descriptor cause => "bad descriptor: " ++ cause.message
  | unknownClass name => "unknown class " ++ name
  | duplicate name => "class " ++ name ++ " is already defined"
  | duplicateMember member => "duplicate member " ++ member

namespace Registry

/-- A class that has to be there already. -/
def known (r : Registry) (name : String) : Except DefineError ClassId :=
  match r.find? name with
  | some c => .ok c
  | none => .error (.unknownClass name)

/-! ## Fields -/

/-- Gives slots to fields: instance fields go behind `layout`, static ones behind the `statics`
slots that are taken.  `done` are the fields in front. -/
def layFields (layout : List Kind) (statics : Nat) (done : List Field) :
    List FieldSpec → Except DefineError (List Field × List Kind)
  | [] => .ok (done, layout)
  | spec :: specs =>
    match FieldType.parse spec.descriptor with
    | .error cause => .error (.descriptor cause)
    | .ok type =>
      if done.any fun f => f.name == spec.name && f.type == type then
        .error (.duplicateMember (spec.name ++ ":" ++ spec.descriptor))
      else if spec.isStatic then
        layFields layout (statics + 1) (done ++ [⟨spec.name, type, true, statics⟩]) specs
      else
        layFields (layout ++ [type.kind]) statics
          (done ++ [⟨spec.name, type, false, layout.length⟩]) specs

/-! ## Methods -/

/-- Enters the virtual method `m` of a class that declares `done` in front of it: it takes the
place of an inherited method with its name and type, and otherwise a new one. -/
def place (r : Registry) (vtable : List MethodRef) (m : MethodRef) (name : String)
    (type : MethodType) : Nat × List MethodRef :=
  let fits := fun n : MethodRef =>
    n.owner != m.owner && (r.method n).name == name && (r.method n).type == type
  match vtable.findIdx? fits with
  | some i => (i, vtable.set i m)
  | none => (vtable.length, vtable ++ [m])

/-- Gives places to the methods of the class `c`; `done` are the methods in front. -/
def layMethods (r : Registry) (c : ClassId) (vtable : List MethodRef) (done : List Method) :
    List MethodSpec → Except DefineError (List Method × List MethodRef)
  | [] => .ok (done, vtable)
  | spec :: specs =>
    match MethodType.parse spec.descriptor with
    | .error cause => .error (.descriptor cause)
    | .ok type =>
      if done.any fun m => m.name == spec.name && m.type == type then
        .error (.duplicateMember (spec.name ++ spec.descriptor))
      else if spec.isStatic || spec.name == Method.constructorName then
        layMethods r c vtable
          (done ++ [⟨spec.name, type, spec.isStatic, spec.body, none⟩]) specs
      else
        let (index, vtable) := r.place vtable ⟨c, done.length⟩ spec.name type
        layMethods r c vtable
          (done ++ [⟨spec.name, type, spec.isStatic, spec.body, some index⟩]) specs

/-! ## Classes -/

/-- Adds a class. -/
def push (r : Registry) (c : Class) : ClassId × Registry :=
  (⟨r.classes.size⟩, ⟨r.classes.push c⟩)

/-- Defines a class. -/
def define (r : Registry) (spec : ClassSpec) : Except DefineError (ClassId × Registry) := do
  if (r.find? spec.name).isSome then throw (.duplicate spec.name)
  let superclass ← spec.superclass.mapM r.known
  let interfaces ← spec.interfaces.mapM r.known
  let parent := superclass.map r.get
  let (fields, layout) ← layFields ((parent.map Class.layout).getD []) 0 [] spec.fields
  let id : ClassId := ⟨r.size⟩
  let (methods, vtable) ← layMethods r id ((parent.map Class.vtable).getD []) [] spec.methods
  return r.push {
    name := spec.name
    sort := spec.sort
    superclass
    interfaces
    fields
    methods
    layout
    vtable
    methodOrder := id :: (parent.map Class.methodOrder).getD [] ++
      interfaces.flatMap fun i => (r.get i).methodOrder
    fieldOrder := id :: (interfaces.flatMap fun i => (r.get i).fieldOrder) ++
      (parent.map Class.fieldOrder).getD [] }

/-- The name of the array class with the given elements. -/
def arrayName (r : Registry) : Component → String
  | .kind k => "[" ++ String.singleton k.letter
  | .reference element =>
    if (r.get element).isArray then "[" ++ r.nameOf element else "[L" ++ r.nameOf element ++ ";"

/-- The array class with the given elements, and the registry in which it is. -/
def arrayClass (r : Registry) (component : Component) : ClassId × Registry :=
  match r.find? (r.arrayName component) with
  | some c => (c, r)
  | none =>
    let root := CoreClass.object.id
    let id : ClassId := ⟨r.size⟩
    r.push {
      name := r.arrayName component
      sort := .array component
      superclass := some root
      interfaces := []
      fields := []
      methods := []
      layout := []
      vtable := (r.get root).vtable
      methodOrder := id :: (r.get root).methodOrder
      fieldOrder := id :: (r.get root).fieldOrder }

/-- What the name of an array class of `n` characters says about the elements. -/
inductive NamedElements (n : Nat) where
  | primitive (p : Primitive)
  /-- They are of the class with a name, which is shorter. -/
  | reference (name : List Char) (shorter : name.length < n)

/-- The elements that the name of an array class speaks of. -/
def namedElements? : (cs : List Char) → Option (NamedElements cs.length)
  | '[' :: 'L' :: name =>
    if name.getLast? = some ';' then
      some (.reference name.dropLast (by simp only [List.length_dropLast, List.length_cons]; omega))
    else none
  | '[' :: '[' :: name => some (.reference ('[' :: name) (by simp))
  | ['[', letter] => (Primitive.ofLetter? letter).map .primitive
  | _ => none

/-- The class that a name's characters stand for.  The name of an array class stands for it whether
or not the class is there already, as long as its elements are. -/
def findChars (r : Registry) (cs : List Char) : Except GuestFault (ClassId × Registry) :=
  match r.find? (String.ofList cs) with
  | some c => .ok (c, r)
  | none =>
    match namedElements? cs with
    | some (.primitive p) => .ok (r.arrayClass (.kind p))
    | some (.reference name _shorter) =>
      match r.findChars name with
      | .ok (c, r) => .ok (r.arrayClass (.reference c))
      | .error fault => .error fault
    | none => .error ⟨.noClassDefFound, String.ofList cs⟩
termination_by cs.length
decreasing_by exact _shorter

/-- The class that a name stands for. -/
def findClass (r : Registry) (name : String) : Except GuestFault (ClassId × Registry) :=
  r.findChars name.toList

end Registry

end GuestBoundary
