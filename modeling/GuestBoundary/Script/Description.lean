import GuestBoundary.Text.Quoted
import GuestBoundary.World

/-!
# Descriptions

A description is what can be told about a value without its identity: the class of an object and
what the object holds, down to a given depth.  Strings and objects that stand for classes or members
have nothing inside and are told in full at any depth.  `ClassSummary`, `MethodSummary` and
`FieldSummary` tell all there is to know about classes and members.
-/

namespace GuestBoundary.Script

/-! ## Values -/

/-- What can be told about a value. -/
inductive Description where
  /-- A primitive or nothing. -/
  | plain (v : Value)
  | null
  | string (className : String) (units : List Text.Unit16)
  /-- An object that stands for a class or a member. -/
  | standIn (className subject : String)
  /-- An object into which nobody looks. -/
  | closed (className : String)
  | slots (className : String) (values : List Description)
  | array (className : String) (elements : List Description)

variable {H : Type}

/-- A member in words. -/
def memberText (w : World H) : Member → String
  | .method m => w.registry.describeMethod m
  | .field f => w.registry.describeField f

/-- The description of a value, where `object` describes objects. -/
def describeWith (object : ObjectRef → Description) : Value → Description
  | .reference none => .null
  | .reference (some o) => object o
  | v => .plain v

/-- The description of an object, where `inner` describes the objects inside if anyone looks at
them. -/
def describeShell (w : World H) (inner : Option (ObjectRef → Description)) (o : ObjectRef) :
    Description :=
  let name := w.className o
  match (w.object o).body, inner with
  | .string units, _ => .string name units
  | .mirror c, _ => .standIn name (w.registry.nameOf c)
  | .member m, _ => .standIn name (memberText w m)
  | .slots values, some f => .slots name (values.map (describeWith f))
  | .array elements, some f => .array name (elements.toList.map (describeWith f))
  | _, none => .closed name

/-- The description of an object down to a depth. -/
def describeObject (w : World H) : Nat → ObjectRef → Description
  | 0 => describeShell w none
  | depth + 1 => describeShell w (some (describeObject w depth))

/-- The description of a value down to a depth. -/
def describeValue (w : World H) (depth : Nat) : Value → Description :=
  describeWith (describeObject w depth)

/-- The description of an object, if there is one. -/
def describeOption (w : World H) (depth : Nat) (o : Option ObjectRef) : Description :=
  describeValue w depth (.reference o)

/-- How deep results are described. -/
def resultDepth : Nat := 2

/-- How deep an object is described on request. -/
def inspectionDepth : Nat := 3

/-- An object by its class and its identity. -/
def identityText (w : World H) (o : ObjectRef) : String :=
  "Object \x7b class: " ++ Text.quote (w.className o) ++ ", identity: " ++
    toString o.identity ++ " \x7d"

/-! ## Members and classes -/

/-- A field and the class that declares it. -/
structure FieldSummary where
  field : Field
  owner : String

/-- A method and the class that declares it. -/
structure MethodSummary where
  method : Method
  owner : String
  /-- The method in words. -/
  description : String

/-- A class, with the classes and members to which it refers in words. -/
structure ClassSummary where
  self : Class
  superclass : Option String
  interfaces : List String
  component : Option String
  fields : List FieldSummary
  methods : List MethodSummary
  vtable : List String
  isInitialized : Bool

def summarizeField (r : Registry) (f : FieldRef) : FieldSummary := ⟨r.field f, r.nameOf f.owner⟩

def summarizeMethod (r : Registry) (m : MethodRef) : MethodSummary :=
  ⟨r.method m, r.nameOf m.owner, r.describeMethod m⟩

/-- What an array class has elements of, in words. -/
def componentText (r : Registry) : Component → String
  | .kind k => k.name
  | .reference element => (r.get element).describe

def isInitialized (w : World H) (c : ClassId) : Bool := (w.classState c).init == .done

def summarizeClass (w : World H) (c : ClassId) : ClassSummary :=
  let r := w.registry
  let self := r.get c
  { self
    superclass := self.superclass.map r.nameOf
    interfaces := self.interfaces.map r.nameOf
    component := self.component?.map (componentText r)
    fields := (List.range self.fields.length).map fun i => summarizeField r ⟨c, i⟩
    methods := (List.range self.methods.length).map fun i => summarizeMethod r ⟨c, i⟩
    vtable := self.vtable.map r.describeMethod
    isInitialized := isInitialized w c }

end GuestBoundary.Script
