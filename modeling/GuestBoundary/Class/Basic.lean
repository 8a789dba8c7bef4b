import GuestBoundary.Descriptor.Basic
import GuestBoundary.Guest.Code

/-!
# Classes

A class names its superclass and interfaces, declares fields and methods, and knows what follows
from these: the kinds of its instances' slots, its table of virtual methods, and the order in which
a member is looked for.  Classes, fields and methods are named by place: a class by its place in
the order of definition, a member by its class and its place there.
-/

namespace GuestBoundary

/-- A class, named by its place in the order of definition. -/
structure ClassId where
  index : Nat
  deriving DecidableEq, Inhabited

/-- A field, named by the class that declares it and its place there. -/
structure FieldRef where
  owner : ClassId
  index : Nat
  deriving DecidableEq, Inhabited

/-- A method, named by the class that declares it and its place there. -/
structure MethodRef where
  owner : ClassId
  index : Nat
  deriving DecidableEq, Inhabited

/-- What an array class has elements of. -/
inductive Component where
  | kind (k : Kind)
  | reference (element : ClassId)
  deriving DecidableEq

/-- What sort of type a class is. -/
inductive ClassSort where
  | concrete
  | abstract
  | interface
  | array (component : Component)
  deriving DecidableEq

/-- How a method runs. -/
inductive Body where
  | code (e : Expr)
  | intrinsic (what : Intrinsic)
  | native
  | abstract

/-- A field as its class declares it. -/
structure Field where
  name : String
  type : FieldType
  isStatic : Bool
  /-- Its place among the slots of an instance, or among the static fields of the class. -/
  slot : Nat

/-- A method as its class declares it. -/
structure Method where
  name : String
  type : MethodType
  isStatic : Bool
  body : Body
  /-- Its place in the table of virtual methods, if it has one. -/
  vtableIndex : Option Nat

/-- A class as it was defined. -/
structure Class where
  name : String
  sort : ClassSort
  superclass : Option ClassId
  interfaces : List ClassId
  fields : List Field
  methods : List Method
  /-- The kinds of an instance's slots, inherited ones first. -/
  layout : List Kind
  /-- The virtual methods, inherited places first. -/
  vtable : List MethodRef
  /-- Where a method is looked for: the class itself, then what its superclass looks through, then
  what its interfaces look through. -/
  methodOrder : List ClassId
  /-- Where a field is looked for: the class itself, then what its interfaces look through, then
  what its superclass looks through. -/
  fieldOrder : List ClassId

namespace Field

def kind (f : Field) : Kind := f.type.kind

/-- The field in words. -/
def describe (f : Field) : String := "Field(" ++ f.name ++ ":" ++ f.type.text ++ ")"

/-- Whether the field has a name and a descriptor. -/
def hasSignature (f : Field) (name descriptor : String) : Bool :=
  f.name == name && f.type.text == descriptor

end Field

namespace Method

/-- What constructors are called. -/
def constructorName : String := "<init>"

/-- What static initializers are called. -/
def initializerName : String := "<clinit>"

def isConstructor (m : Method) : Bool := m.name == constructorName

def isNative (m : Method) : Bool :=
  match m.body with
  | .native => true
  | _ => false

def isAbstract (m : Method) : Bool :=
  match m.body with
  | .abstract => true
  | _ => false

/-- The descriptor. -/
def descriptor (m : Method) : String := m.type.text

/-- Whether the method has a name and a descriptor. -/
def hasSignature (m : Method) (name descriptor : String) : Bool :=
  m.name == name && m.descriptor == descriptor

/-- Whether two methods have one name and one type. -/
def sameSignature (m n : Method) : Bool := m.name == n.name && m.type == n.type

/-- Whether a call on an object may run another method instead. -/
def isVirtual (m : Method) : Bool := !m.isStatic && !m.isConstructor

end Method

namespace Class

/-- A name with points for slashes. -/
def dotted (name : String) : String :=
  String.ofList (name.toList.map fun c => if c = '/' then '.' else c)

def dottedName (c : Class) : String := dotted c.name

/-- The class in words. -/
def describe (c : Class) : String := "Class(" ++ c.name ++ ")"

def component? (c : Class) : Option Component :=
  match c.sort with
  | .array component => some component
  | _ => none

/-- The class of the elements of a reference array class. -/
def element? (c : Class) : Option ClassId :=
  match c.sort with
  | .array (.reference element) => some element
  | _ => none

def isInterface (c : Class) : Bool := c.sort == .interface

def isArray (c : Class) : Bool := c.component?.isSome

/-- Whether objects of exactly this class can be allocated. -/
def isInstantiable (c : Class) : Bool := c.sort == .concrete

/-- The class above all others: it extends nothing and is neither interface nor array. -/
def isRoot (c : Class) : Bool := c.superclass.isNone && !c.isInterface && !c.isArray

/-- The kinds of the static fields, in the order of their slots. -/
def staticKinds (c : Class) : List Kind :=
  (c.fields.filter Field.isStatic).map Field.kind

/-- The place of the static initializer among the methods. -/
def initializer? (c : Class) : Option Nat :=
  c.methods.findIdx? fun m => m.isStatic && m.name == Method.initializerName

/-- Whether some method is called like a static initializer. -/
def declaresInitializer (c : Class) : Bool :=
  c.methods.any fun m => m.name == Method.initializerName

end Class

/-- The classes that the boundary itself needs. -/
inductive CoreClass where
  | object
  | classObject
  | string
  | throwable
  | exception
  | error
  | runtimeException
  | reflectedMethod
  | reflectedField
  | reflectedConstructor
  deriving DecidableEq

namespace CoreClass

/-- Every core class, in the order of definition. -/
def all : List CoreClass :=
  [object, classObject, string, throwable, exception, error, runtimeException, reflectedMethod,
    reflectedField, reflectedConstructor]

def name : CoreClass → String
  | object => "java/lang/Object"
  | classObject => "java/lang/Class"
  | string => "java/lang/String"
  | throwable => "java/lang/Throwable"
  | exception => "java/lang/Exception"
  | error => "java/lang/Error"
  | runtimeException => "java/lang/RuntimeException"
  | reflectedMethod => "java/lang/reflect/Method"
  | reflectedField => "java/lang/reflect/Field"
  | reflectedConstructor => "java/lang/reflect/Constructor"

/-- Core classes are defined first, so their places are fixed. -/
def id : CoreClass → ClassId
  | object => ⟨0⟩
  | classObject => ⟨1⟩
  | string => ⟨2⟩
  | throwable => ⟨3⟩
  | exception => ⟨4⟩
  | error => ⟨5⟩
  | runtimeException => ⟨6⟩
  | reflectedMethod => ⟨7⟩
  | reflectedField => ⟨8⟩
  | reflectedConstructor => ⟨9⟩

end CoreClass

end GuestBoundary
