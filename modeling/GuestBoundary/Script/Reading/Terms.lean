import GuestBoundary.Elements
import GuestBoundary.Fault
import GuestBoundary.Json
import GuestBoundary.Script.Step

/-!
# Reading values and terms

Scripts are written in JSON.  A kind is its letter; a payload is a truth value, an integer or a
decimal text, or the hexadecimal digits of a floating value; `"$x"` names a word, `"@x"` an object.
Integers that are out of range are cut to their type.  A reader answers `none` for what it does not
understand.
-/

namespace GuestBoundary.Script.Reading

/-! ## Numbers -/

/-- The number that hexadecimal digits spell, with or without `0x` in front. -/
def hexNumber? (s : String) : Option Nat :=
  let digits :=
    match s.toList with
    | '0' :: 'x' :: rest => rest
    | cs => cs
  if digits.isEmpty then none
  else digits.foldlM (fun n c => (Json.hexValue? c).map fun d => n * 16 + d) 0

/-- The 64 low bits of an integer. -/
def wordOfInt (n : Int) : UInt64 := UInt64.ofNat (n % UInt64.size).toNat

/-- A word: an integer, or a text of hexadecimal digits. -/
def bits? (j : Json) : Option UInt64 :=
  match j.text? with
  | some s => (hexNumber? s).map UInt64.ofNat
  | none => j.int?.map wordOfInt

def nat? (j : Json) : Option Nat := j.int?.map Int.toNat

/-- The low half of a word. -/
def int32? (j : Json) : Option Int32 := (bits? j).map fun w => w.toUInt32.toInt32

/-- An integer or its decimal text. -/
def wide? (j : Json) : Option Int :=
  match j.text? with
  | some s => s.toInt?
  | none => j.int?

/-- What may be missing: null, or something that can be read. -/
def nullable {α : Type} (read : Json → Option α) (j : Json) : Option (Option α) :=
  if j.isNull then some none else (read j).map some

/-- A list, each of whose items can be read. -/
def list? {α : Type} (read : Json → Option α) (j : Json) : Option (List α) :=
  j.items?.bind fun items => items.mapM read

/-- A list that may be missing. -/
def optionalList? {α : Type} (read : Json → Option α) (j : Json) : Option (List α) :=
  if j.isNull then some [] else list? read j

/-- Whether a switch is on; a missing one is off. -/
def switch (j : Json) : Bool := j.boolean?.getD false

/-! ## Text and bytes -/

/-- Code units: a text, or a list of units. -/
def units? : Json → Option (List Text.Unit16)
  | .string us => some us
  | j => list? (fun u => u.int?.map fun n => UInt16.ofNat (n % 65536).toNat) j

/-- Bytes: those of a text, or a list of them. -/
def bytes? (j : Json) : Option (List UInt8) :=
  match j.text? with
  | some s => some s.toUTF8.toList
  | none => list? (fun b => b.int?.map fun n => UInt8.ofNat (n % 256).toNat) j

/-! ## Values -/

/-- A kind by its letter. -/
def kind? (j : Json) : Option Kind :=
  match j.text?.map String.toList with
  | some [c] => if c = '[' then none else Kind.ofLetter? c
  | _ => none

/-- The word of a primitive's payload. -/
def payloadWord? (p : Primitive) (j : Json) : Option UInt64 :=
  match p with
  | .boolean =>
    match j with
    | .boolean b => (Value.boolean b).toBits
    | j => bits? j
  | .float | .double => bits? j
  | _ => (wide? j).map wordOfInt

/-- A primitive by its payload. -/
def primitive? (p : Primitive) (j : Json) : Option Value :=
  (payloadWord? p j).map (Value.ofWord p)

/-- The bytes of elements. -/
def elements? (p : Primitive) (j : Json) : Option (List UInt8) := do
  let words ← list? (payloadWord? p) j
  return words.flatMap fun w => bytesOfNat p.width w.toNat

/-- A value by its letter and its payload, where `object` reads objects. -/
def valueWith? {α : Type} (plain : Value → α) (object : Json → Option α) (j : Json) :
    Option α := do
  let items ← j.items?
  let payload := items[1]?.getD .null
  match ← kind? (items.headD .null) with
  | .void => return plain .void
  | .primitive p => return plain (← primitive? p payload)
  | .object => if payload.isNull then return plain .null else object payload

/-! ## Terms -/

/-- The name of a variable of the sort that `mark` stands for. -/
def variableName? (mark : Char) (j : Json) : Option String :=
  j.text?.filter fun s => s.toList.head? = some mark

/-- A word as a variable, or as `own` reads it. -/
def word? (own : Json → Option UInt64) (j : Json) : Option WordTerm :=
  match variableName? '$' j with
  | some name => some (.variable name)
  | none => (own j).map WordTerm.given

/-- A reference: null, a variable, or the bits of a handle. -/
def reference? : Json → Option WordTerm := word? fun j =>
  if j.isNull then some 0 else bits? (j.member "raw")

/-- A payload of a kind as a word. -/
def payload? (k : Kind) (j : Json) : Option WordTerm :=
  match k with
  | .primitive p => word? (payloadWord? p) j
  | _ => reference? j

/-- A value. -/
def value? : Json → Option ValueTerm :=
  valueWith? ValueTerm.given fun payload =>
    match payload.text? with
    | some name => some (.object name)
    | none => (units? (payload.member "s")).map ValueTerm.string

/-- A member as its class, its name and its descriptor. -/
def member? (j : Json) : Option MemberName := do
  match ← list? Json.text? j with
  | [owner, name, descriptor] => return ⟨owner, name, descriptor⟩
  | _ => none

/-- A fault by its kind and its message. -/
def fault? (kind message : Json) : Option GuestFault := do
  return ⟨← FaultKind.ofName? (← kind.text?), ← message.text?⟩

/-- What a native function with a result of kind `k` answers; zero, if nothing is said. -/
def result? (k : Kind) (j : Json) : Option ResultTerm :=
  match j with
  | .null => some (.word (.given 0))
  | .array (sum :: terms) =>
    if sum.text? = some "add" then (terms.mapM (payload? Primitive.long)).map ResultTerm.sum
    else none
  | j => (payload? k j).map ResultTerm.word

/-! ## Operands -/

/-- A slot by the letter of its kind and its payload. -/
def slot? (j : Json) : Option (Kind × WordTerm) := do
  let items ← j.items?
  let kind ← kind? (items.headD .null)
  return (kind, ← payload? kind (items[1]?.getD .null))

/-- An entry of a list of native methods. -/
def entry? (j : Json) : Option EntryTerm := do
  return ⟨← nullable bytes? (j.member "name"), ← nullable bytes? (j.member "sig"),
    ← reference? (j.member "fn")⟩

/-- The operand for a parameter. -/
def operand? (p : Interface.Param) (j : Json) : Option Operand :=
  match p with
  | .handle => (reference? j).map Operand.handle
  | .member => (word? bits? j).map Operand.member
  | .text => (nullable bytes? j).map Operand.text
  | .primitive p => (word? (payloadWord? p) j).map (Operand.primitive p)
  | .arguments => (nullable (list? slot?) j).map Operand.arguments
  | .copyFlag => some (.copyFlag !j.isNull)
  | .buffer => (reference? j).map Operand.buffer
  | .target p => (nullable (fun j => nat? (j.member "n")) j).map (Operand.target p)
  | .source p => (nullable (elements? p) j).map Operand.source
  | .natives => (nullable (list? entry?) j).map Operand.natives

/-- The operands for parameters, one each. -/
def operands? : List Interface.Param → List Json → Option (List Operand)
  | [], [] => some []
  | p :: ps, j :: js => do
    let o ← operand? p j
    let os ← operands? ps js
    return o :: os
  | _, _ => none

end GuestBoundary.Script.Reading
