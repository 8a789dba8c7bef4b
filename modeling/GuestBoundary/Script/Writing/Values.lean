import GuestBoundary.Elements
import GuestBoundary.Json
import GuestBoundary.Script.Description

/-!
# Writing values and descriptions

A payload is a truth value, an integer, the decimal text of a long integer, or the hexadecimal
digits of a floating value; in native memory a truth value is a number.  A description is an object
that names a class and says what is inside.
-/

namespace GuestBoundary.Script.Writing

/-! ## Parts -/

def ofOption {α : Type} (write : α → Json) : Option α → Json
  | some a => write a
  | none => .null

def ofTexts (ss : List String) : Json := .array (ss.map Json.ofText)

def ofUnits (us : List Text.Unit16) : Json := .array (us.map fun u => Json.ofNat u.toNat)

def ofBytes (bs : List UInt8) : Json := .array (bs.map fun b => Json.ofNat b.toNat)

/-- An error by its name and its message. -/
def failure (name message : String) : Json :=
  .record [("error", .ofText name), ("message", .ofText message)]

/-! ## Values -/

/-- The payload of a value, where `object` writes objects. -/
def payload (object : ObjectRef → Json) : Value → Json
  | .boolean b => .boolean b
  | .byte n => .ofInt n.toInt
  | .char u => .ofNat u.toNat
  | .short n => .ofInt n.toInt
  | .int n => .ofInt n.toInt
  | .float bits => .ofText (Text.hexPadded 8 bits.toNat)
  | .long n => .ofText (toString n.toInt)
  | .double bits => .ofText (Text.hexPadded 16 bits.toNat)
  | .reference o => ofOption object o
  | .void => .null

/-- The payload of a value that is no object. -/
def plainPayload (v : Value) : Json := payload (fun _ => .null) v

/-- The payload of a value that is no object, truth values as numbers. -/
def nativePayload : Value → Json
  | .boolean b => .ofNat (if b then 1 else 0)
  | v => plainPayload v

/-- The letter of a value's kind and its payload, if it has one. -/
def lettered (v : Value) (payload : Json) : Json :=
  match v with
  | .void => .array [.ofText "V"]
  | v => .array [.ofText (String.singleton v.kind.letter), payload]

/-- An element in native memory: a truth value is its byte. -/
def element (p : Primitive) (bytes : List UInt8) : Json :=
  match p with
  | .boolean => .ofNat (natOfBytes bytes)
  | p => plainPayload (Value.ofBytes p bytes)

/-- Whole elements in native memory; bytes behind the last of them are left out. -/
def elements (p : Primitive) (bytes : List UInt8) : Json :=
  .array ((List.range (bytes.length / p.width)).map fun i =>
    element p ((bytes.drop (i * p.width)).take p.width))

/-! ## Descriptions -/

def isPrintable (u : Text.Unit16) : Bool := 0x20 ≤ u && u ≤ 0x7e

/-- The text of a guest string, or its units if not all of them are printable. -/
def guestText (us : List Text.Unit16) : Json :=
  if us.all isPrintable then .string us else ofUnits us

mutual

/-- A description. -/
def description : Description → Json
  | .plain v => plainPayload v
  | .null => .null
  | .string name us => .record [("c", .ofText name), ("s", guestText us)]
  | .standIn name subject => .record [("c", .ofText name), ("m", .ofText subject)]
  | .closed name => .record [("c", .ofText name)]
  | .slots name values => .record [("c", .ofText name), ("f", .array (descriptions values))]
  | .array name elements => .record [("c", .ofText name), ("a", .array (descriptions elements))]

/-- Several descriptions. -/
def descriptions : List Description → List Json
  | [] => []
  | d :: ds => description d :: descriptions ds

end

/-- The description of a value with the letter of its kind. -/
def value : Description → Json
  | .plain v => lettered v (plainPayload v)
  | d => lettered .null (description d)

end GuestBoundary.Script.Writing
