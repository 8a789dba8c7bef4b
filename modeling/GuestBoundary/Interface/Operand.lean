import GuestBoundary.Guest.Initialization
import GuestBoundary.Interface.Argument
import GuestBoundary.Text.Modified

/-!
# Operands

The functions of the interface take their operands as handles, numbers and bytes.  These are the
checks that they share: a reference that must not be null, a handle that must stand for a class, a
capacity, a region of a sequence, the arguments of a call.  A check that fails is a fault with the
message that says what is wrong.
-/

namespace GuestBoundary.Entry

open Interface

variable {H : Type}

/-! ## References -/

/-- The object that a handle stands for. -/
def object (h : Handle) : Entry H (Option ObjectRef) := Action.read fun w => w.resolve h

/-- The object that a handle stands for, which must not be null. -/
def require (h : Handle) (what : String) : Entry H ObjectRef := do
  match ← object h with
  | some o => return o
  | none => fault .nullPointer (what ++ " is null")

/-- The class that a handle stands for. -/
def classOf (h : Handle) : Entry H ClassId := do
  let o ← require h "class"
  let w ← Action.world
  match (w.object o).mirrored? with
  | some c => return c
  | none => fault .illegalArgument (w.dottedName o ++ " is not a class")

/-- A new local reference to the object that stands for a class. -/
def classLocal (c : ClassId) : Entry H Handle := do
  let o ← Guest.mirror c
  newLocal (some o)

/-! ## Members -/

/-- The method that a number names. -/
def method (id : UInt64) : Entry H MethodRef := do
  let b ← bridge
  Action.ofExcept ((b.methods.find id).mapError .contract)

/-- The field that a number names. -/
def field (id : UInt64) : Entry H FieldRef := do
  let b ← bridge
  Action.ofExcept ((b.fields.find id).mapError .contract)

/-- The number of a method. -/
def methodId (m : MethodRef) : Entry H UInt64 := onBridge fun b =>
  let (id, methods) := b.methods.idFor m
  .ok (id, { b with methods })

/-- The number of a field. -/
def fieldId (f : FieldRef) : Entry H UInt64 := onBridge fun b =>
  let (id, fields) := b.fields.idFor f
  .ok (id, { b with fields })

/-! ## Text and numbers -/

/-- The text that bytes spell, which must be there. -/
def text (bytes : Option (List UInt8)) (what : String) : Entry H String :=
  match bytes with
  | some bytes => return Text.Modified.text bytes
  | none => fault .nullPointer (what ++ " is null")

/-- A number of things that is not negative. -/
def capacity (n : Int32) : Entry H Nat :=
  if n < 0 then fault .illegalArgument ("negative capacity " ++ toString n.toInt)
  else return n.toInt.toNat

/-- The region of `count` elements from `start` on in a sequence of `total` elements. -/
def region (start count : Int32) (total : Nat) (kind : FaultKind) : Entry H (Nat × Nat) :=
  if 0 ≤ start.toInt ∧ 0 ≤ count.toInt ∧ start.toInt + count.toInt ≤ total then
    return (start.toInt.toNat, count.toInt.toNat)
  else
    fault kind ("region " ++ toString start.toInt ++ "+" ++ toString count.toInt ++
      " out of bounds for length " ++ toString total)

/-! ## Values -/

/-- The arguments of a method from their slots.  A method without parameters needs no slots. -/
def arguments (m : MethodRef) (slots : Option (List Slot)) : Entry H (List Value) := do
  let w ← Action.world
  let method := w.registry.method m
  let signature ← onBridge fun b =>
    match b.signatures.get method.descriptor with
    | .ok (s, signatures) => .ok (s, { b with signatures })
    | .error cause => .error (.bind (.descriptor cause))
  if signature.params.isEmpty then return []
  else
    match slots with
    | some slots => Action.read fun w => Slot.readAll w.resolve signature.params slots
    | none =>
      fault .nullPointer ("null argument array for " ++ method.name ++ method.descriptor)

/-- The result of kind `k` that a value becomes; a reference becomes a new local one. -/
def returned (k : Kind) (v : Value) : Entry H Returned := do
  let b ← bridge
  let v ← ofConversion (b.config.conversion.convertResult v k)
  match v with
  | .reference o => do
    let h ← newLocal o
    return .handle h
  | .void => return .nothing
  | v => return .primitive v

/-- The value of kind `k` that an argument stands for; a handle stands for its object. -/
def passed (a : Argument) : Entry H Value :=
  match a with
  | .handle h => do
    let o ← object h
    return .reference o
  | .primitive v => return v
  | _ => Action.halt .misuse

end GuestBoundary.Entry
