import GuestBoundary.Value.Basic

/-!
# Elements of an array

A reference array is a list of references.  A primitive array is the bytes of its elements in
native memory, least significant byte first, so a region of the array is a stretch of those bytes.
A truth value takes one byte and is true unless the byte is zero.
-/

namespace GuestBoundary

/-- The `n` low bytes of a number, least significant first. -/
def bytesOfNat : Nat → Nat → List UInt8
  | 0, _ => []
  | n + 1, w => UInt8.ofNat (w % 256) :: bytesOfNat n (w / 256)

/-- The number whose bytes are given, least significant first. -/
def natOfBytes : List UInt8 → Nat
  | [] => 0
  | b :: bs => b.toNat + 256 * natOfBytes bs

@[simp] theorem length_bytesOfNat (n w : Nat) : (bytesOfNat n w).length = n := by
  induction n generalizing w with
  | zero => rfl
  | succ n ih => simp [bytesOfNat, ih]

/-- The bytes of a primitive value of type `p`. -/
def Value.bytes (p : Primitive) (v : Value) : List UInt8 :=
  bytesOfNat p.width ((v.toBits.getD 0).toNat)

/-- The value of type `p` that bytes spell. -/
def Value.ofBytes (p : Primitive) (bs : List UInt8) : Value :=
  Value.ofWord p (UInt64.ofNat (natOfBytes bs))

/-- What an array holds. -/
inductive Elements where
  | primitive (type : Primitive) (bytes : List UInt8)
  | references (items : List (Option ObjectRef))
  deriving DecidableEq

namespace Elements

/-- `n` zeros of a primitive type. -/
def zeros (p : Primitive) (n : Nat) : Elements := primitive p (List.replicate (n * p.width) 0)

/-- `n` references to the same object, or nulls. -/
def fill (n : Nat) (o : Option ObjectRef) : Elements := references (List.replicate n o)

/-- Storage for `n` elements of a kind; `void` has none. -/
def ofKind? (k : Kind) (n : Nat) (o : Option ObjectRef) : Option Elements :=
  match k with
  | .primitive p => some (zeros p n)
  | .object => some (fill n o)
  | .void => none

def size : Elements → Nat
  | primitive p bytes => bytes.length / p.width
  | references items => items.length

def kind : Elements → Kind
  | primitive p _ => p
  | references _ => .object

def isPrimitive : Elements → Bool
  | primitive _ _ => true
  | references _ => false

/-- The element at an index. -/
def get? (e : Elements) (i : Nat) : Option Value :=
  match e with
  | primitive p bytes =>
    if i < e.size then some (Value.ofBytes p ((bytes.drop (i * p.width)).take p.width)) else none
  | references items => (items[i]?).map Value.reference

/-- Every element in order. -/
def toList (e : Elements) : List Value := (List.range e.size).filterMap e.get?

/-- Puts `new` in place of the bytes from `start` on. -/
def splice (bytes : List UInt8) (start : Nat) (new : List UInt8) : List UInt8 :=
  bytes.take start ++ new ++ bytes.drop (start + new.length)

/-- Replaces the element at an index by a value of the element kind. -/
def set? (e : Elements) (i : Nat) (v : Value) : Option Elements :=
  if i < e.size ∧ v.kind = e.kind then
    match e, v with
    | primitive p bytes, v => some (primitive p (splice bytes (i * p.width) (v.bytes p)))
    | references items, .reference o => some (references (items.set i o))
    | references _, _ => none
  else none

/-- The bytes of `count` elements from `start` on; none of a reference array or past its end. -/
def read? (e : Elements) (start count : Nat) : Option (List UInt8) :=
  match e with
  | primitive p bytes =>
    if start + count ≤ e.size then some ((bytes.drop (start * p.width)).take (count * p.width))
    else none
  | references _ => none

/-- Puts whole elements in place from `start` on, if they fit. -/
def write? (e : Elements) (start : Nat) (new : List UInt8) : Option Elements :=
  match e with
  | primitive p bytes =>
    if new.length % p.width = 0 ∧ start + new.length / p.width ≤ e.size then
      some (primitive p (splice bytes (start * p.width) new))
    else none
  | references _ => none

end Elements

end GuestBoundary
