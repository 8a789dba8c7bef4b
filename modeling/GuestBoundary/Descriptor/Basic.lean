import GuestBoundary.Kind

/-!
# Types and method types

The type of a field is a primitive, a class or an array of such a type; a method has a list of
parameter types and a result type or none.  `text` writes the descriptor of a type, which is also
how an array class is named.
-/

namespace GuestBoundary

/-- The internal name of a class as a descriptor can spell it: not empty, and free of the mark
that ends it. -/
structure ClassName where
  text : String
  nonempty : text.toList ≠ []
  unmarked : ';' ∉ text.toList
  deriving DecidableEq

/-- The type of a field, an array element or a parameter. -/
inductive FieldType where
  | primitive (type : Primitive)
  | reference (name : ClassName)
  | array (element : FieldType)
  deriving DecidableEq

namespace FieldType

/-- The characters of the descriptor. -/
def chars : FieldType → List Char
  | primitive p => [p.letter]
  | reference name => 'L' :: name.text.toList ++ [';']
  | array element => '[' :: element.chars

/-- The descriptor. -/
def text (t : FieldType) : String := String.ofList t.chars

/-- How a value of the type travels: class and array types are references. -/
def kind : FieldType → Kind
  | primitive p => p
  | reference _ | array _ => .object

def isArray : FieldType → Bool
  | array _ => true
  | _ => false

/-- The name of the class that a reference type stands for; an array class is named by its
descriptor. -/
def className? : FieldType → Option String
  | primitive _ => none
  | reference name => some name.text
  | array element => some (array element).text

end FieldType

/-- The type of a method; a result of `none` is `void`. -/
structure MethodType where
  params : List FieldType
  result : Option FieldType
  deriving DecidableEq

namespace MethodType

/-- The characters of a result type. -/
def resultChars : Option FieldType → List Char
  | some t => t.chars
  | none => ['V']

/-- The characters of the parameter types, one after the other. -/
def paramChars (ts : List FieldType) : List Char := ts.flatMap FieldType.chars

/-- The descriptor. -/
def text (m : MethodType) : String :=
  String.ofList ('(' :: paramChars m.params ++ ')' :: resultChars m.result)

/-- The descriptor of the result type. -/
def resultText (m : MethodType) : String := String.ofList (resultChars m.result)

def paramKinds (m : MethodType) : List Kind := m.params.map FieldType.kind

def resultKind (m : MethodType) : Kind :=
  match m.result with
  | some t => t.kind
  | none => .void

/-- The part of the descriptor between its first character and its first closing parenthesis. -/
def paramText (m : MethodType) : String :=
  String.ofList ((m.text.toList.drop 1).takeWhile (· ≠ ')'))

end MethodType

end GuestBoundary
