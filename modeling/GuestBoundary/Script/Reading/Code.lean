import GuestBoundary.Class.Definition
import GuestBoundary.Script.Reading.Terms

/-!
# Reading guest code and classes

An expression is a list whose first item says what it does; a class is an object with a list of
members, each of which is a field, a method or a static initializer.
-/

namespace GuestBoundary.Script.Reading

/-! ## Expressions -/

/-- An expression that is a value. -/
def constant? (j : Json) : Option Expr := do
  match ← value? j with
  | .given v => return .value v
  | .object name => return .named name
  | .string us => return .string us

/-- An expression that has no expressions inside. -/
def simple? (tag : String) (args : List Json) : Option Expr :=
  match tag, args with
  | "val", [v] => constant? v
  | "arg", [i] => (nat? i).map Expr.argument
  | "this", [] => some .this
  | "null", [] => some (.value .null)
  | "void", [] => some (.value .void)
  | "str", [t] => (units? t).map Expr.string
  | "trace", [t] => t.text?.map Expr.trace
  | "get", [name, type] => do return .getField (← name.text?) (← type.text?)
  | "getstatic", [owner, name, type] => do
    return .getStatic (← owner.text?) (← name.text?) (← type.text?)
  | "throw", [kind, message] => do
    let f ← fault? kind message
    return .throwFault f.kind f.message
  | "thrownew", [owner, message] => do
    return .throwNew (← owner.text?) (← nullable Json.text? message)
  | "panic", [t] => do return .panic (some (← t.text?))
  | "panicstatic", [] => some (.panic (some "static panic"))
  | "panicany", [] => some (.panic none)
  | _, _ => none

/-- An expression with expressions inside, which `read` reads. -/
def compound? (read : Json → Option Expr) (tag : String) (args : List Json) : Option Expr :=
  match tag, args with
  | "seq", parts => (parts.mapM read).map Expr.sequence
  | "add", [a, b] => do return .add (← read a) (← read b)
  | "lt", [a, b, yes, no] => do
    return .ifLess (← read a) (← read b) (← read yes) (← read no)
  | "try", [a, b] => do return .attempt (← read a) (← read b)
  | "put", [name, type, e] => do return .putField (← name.text?) (← type.text?) (← read e)
  | "putstatic", [owner, name, type, e] => do
    return .putStatic (← owner.text?) (← name.text?) (← type.text?) (← read e)
  | "callstatic", owner :: name :: type :: args => do
    return .callStatic (← owner.text?) (← name.text?) (← type.text?) (← args.mapM read)
  | "callvirtual", target :: name :: type :: args => do
    return .callVirtual (← read target) (← name.text?) (← type.text?) (← args.mapM read)
  | "callspecial", owner :: name :: type :: args => do
    return .callSpecial (← owner.text?) (← name.text?) (← type.text?) (← args.mapM read)
  | "new", owner :: type :: args => do
    return .new (← owner.text?) (← type.text?) (← args.mapM read)
  | "raise", [e] => (read e).map Expr.throwObject
  | _, _ => none

/-- An expression that is nested at most `depth` deep. -/
def exprWithin? : Nat → Json → Option Expr
  | 0, _ => none
  | depth + 1, j => do
    match ← j.items? with
    | [] => none
    | tag :: args => do
      let tag ← tag.text?
      simple? tag args <|> compound? (exprWithin? depth) tag args

/-- An expression. -/
def expr? (j : Json) : Option Expr := exprWithin? j.depth j

/-! ## Classes -/

def isField (j : Json) : Bool := !(j.member "field").isNull

def fieldSpec? (j : Json) : Option FieldSpec := do
  return ⟨← (j.member "field").text?, ← (j.member "desc").text?, switch (j.member "static")⟩

/-- A method or a static initializer. -/
def methodSpec? (j : Json) : Option MethodSpec := do
  if (j.member "init").isNull then
    let name ← (j.member "method").text?
    let type ← (j.member "desc").text?
    let isStatic := switch (j.member "static")
    match (j.member "body").text? with
    | some "native" => return ⟨name, type, isStatic, .native⟩
    | some "abstract" => return .abstract name type
    | _ => return ⟨name, type, isStatic, .code (← expr? (j.member "body"))⟩
  else return .initializer (← expr? (j.member "init"))

/-- What sort of class it is; concrete, if nothing is said. -/
def sort? (j : Json) : Option ClassSort :=
  if j.isNull then some .concrete
  else
    match j.text? with
    | some "class" => some .concrete
    | some "abstract" => some .abstract
    | some "interface" => some .interface
    | _ => none

/-- A class to be defined.  Classes extend the root unless they say otherwise, interfaces extend
nothing. -/
def classSpec? (j : Json) : Option ClassSpec := do
  let sort ← sort? (j.member "type")
  let members ← optionalList? some (j.member "members")
  let parent := (j.member "super").text?.getD CoreClass.object.name
  return {
    name := ← (j.member "name").text?
    sort
    superclass := if sort = .interface then none else some parent
    interfaces := ← optionalList? Json.text? (j.member "interfaces")
    fields := ← (members.filter isField).mapM fieldSpec?
    methods := ← (members.filter fun m => !isField m).mapM methodSpec? }

end GuestBoundary.Script.Reading
