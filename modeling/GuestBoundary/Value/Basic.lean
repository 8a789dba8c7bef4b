import GuestBoundary.Kind
import GuestBoundary.Text.Hex

/-!
# Guest values

A value is a primitive, a reference or nothing.  Floating values are kept as their bit patterns,
so equality of values is equality of bits.  `toBits` puts a primitive into a 64-bit word, integers
extended by their own signedness; `ofBits` cuts one out of a word again (`ofBits_toBits`).
-/

namespace GuestBoundary

/-- A guest object, named by its place in the order of creation. -/
structure ObjectRef where
  index : Nat
  deriving DecidableEq, Inhabited

/-- The number that guest code sees as an object's identity; the first object has number one. -/
def ObjectRef.identity (o : ObjectRef) : Nat := o.index + 1

/-- A guest value. -/
inductive Value where
  | boolean (b : Bool)
  | byte (n : Int8)
  | char (unit : UInt16)
  | short (n : Int16)
  | int (n : Int32)
  | float (bits : UInt32)
  | long (n : Int64)
  | double (bits : UInt64)
  | reference (object : Option ObjectRef)
  | void
  deriving DecidableEq, Inhabited

namespace Value

/-- The null reference. -/
def null : Value := reference none

/-- A reference to an object. -/
def ofObject (o : ObjectRef) : Value := reference (some o)

def kind : Value → Kind
  | boolean _ => Primitive.boolean
  | byte _ => Primitive.byte
  | char _ => Primitive.char
  | short _ => Primitive.short
  | int _ => Primitive.int
  | float _ => Primitive.float
  | long _ => Primitive.long
  | double _ => Primitive.double
  | reference _ => .object
  | void => .void

/-- The zero of a primitive type. -/
def zero : Primitive → Value
  | .boolean => boolean false
  | .byte => byte 0
  | .char => char 0
  | .short => short 0
  | .int => int 0
  | .float => float 0
  | .long => long 0
  | .double => double 0

/-- The value that a slot of a kind starts with. -/
def default : Kind → Value
  | .primitive p => zero p
  | .object => null
  | .void => void

theorem kind_zero (p : Primitive) : (zero p).kind = p := by cases p <;> rfl

theorem kind_default (k : Kind) : (default k).kind = k := by
  cases k with
  | primitive p => exact kind_zero p
  | object => rfl
  | void => rfl

def isNull : Value → Bool
  | reference none => true
  | _ => false

/-- The object of a reference. -/
def object? : Value → Option ObjectRef
  | reference o => o
  | _ => none

def int? : Value → Option Int32
  | int n => some n
  | _ => none

def long? : Value → Option Int64
  | long n => some n
  | _ => none

def double? : Value → Option UInt64
  | double bits => some bits
  | _ => none

def boolean? : Value → Option Bool
  | boolean b => some b
  | _ => none

/-- The 64-bit word of a primitive; references and `void` have none. -/
def toBits : Value → Option UInt64
  | boolean b => some (if b then 1 else 0)
  | byte n => some n.toInt64.toUInt64
  | char unit => some unit.toUInt64
  | short n => some n.toInt64.toUInt64
  | int n => some n.toInt64.toUInt64
  | float bits => some bits.toUInt64
  | long n => some n.toUInt64
  | double bits => some bits
  | reference _ => none
  | void => none

/-- The primitive of type `p` in the low bytes of a word; a truth value is a byte that is not
zero. -/
def ofWord (p : Primitive) (w : UInt64) : Value :=
  match p with
  | .boolean => boolean (w.toUInt8 != 0)
  | .byte => byte w.toUInt8.toInt8
  | .char => char w.toUInt16
  | .short => short w.toUInt16.toInt16
  | .int => int w.toUInt32.toInt32
  | .float => float w.toUInt32
  | .long => long w.toInt64
  | .double => double w

/-- The primitive of type `p` that a 64-bit intermediate reads as: a truth value says whether the
whole word is not zero. -/
def ofBits (p : Primitive) (w : UInt64) : Value :=
  match p with
  | .boolean => boolean (w != 0)
  | p => ofWord p w

theorem kind_ofWord (p : Primitive) (w : UInt64) : (ofWord p w).kind = p := by cases p <;> rfl

theorem kind_ofBits (p : Primitive) (w : UInt64) : (ofBits p w).kind = p := by cases p <;> rfl

/-- Cutting off what an extension by the sign added. -/
theorem setWidth_signExtend {n m : Nat} (h : n ≤ m) (x : BitVec n) :
    (x.signExtend m).setWidth n = x := by
  ext i hi
  rw [BitVec.getElem_setWidth, BitVec.getLsbD_signExtend, if_pos hi,
    BitVec.getLsbD_eq_getElem hi]
  simp only [decide_eq_true (Nat.lt_of_lt_of_le hi h), Bool.true_and]

/-- A primitive is read back from its word. -/
theorem ofWord_toBits {p : Primitive} {v : Value} (hk : v.kind = p) {w : UInt64}
    (hw : v.toBits = some w) : ofWord p w = v := by
  cases v with
  | boolean b => cases hk; cases hw; cases b <;> rfl
  | byte n =>
    cases hk; cases hw
    have h := setWidth_signExtend (by decide : 8 ≤ 64) n.toBitVec
    exact congrArg byte (Int8.toBitVec_inj.1 h)
  | char unit => cases hk; cases hw; exact congrArg char (UInt16.toUInt16_toUInt64 unit)
  | short n =>
    cases hk; cases hw
    have h := setWidth_signExtend (by decide : 16 ≤ 64) n.toBitVec
    exact congrArg short (Int16.toBitVec_inj.1 h)
  | int n =>
    cases hk; cases hw
    have h := setWidth_signExtend (by decide : 32 ≤ 64) n.toBitVec
    exact congrArg int (Int32.toBitVec_inj.1 h)
  | float bits => cases hk; cases hw; exact congrArg float (UInt32.toUInt32_toUInt64 bits)
  | long n => cases hk; cases hw; rfl
  | double bits => cases hk; cases hw; rfl
  | reference o => cases hw
  | void => cases hw

theorem ofBits_toBits {p : Primitive} {v : Value} (hk : v.kind = p) {w : UInt64}
    (hw : v.toBits = some w) : ofBits p w = v := by
  cases p with
  | boolean =>
    cases v with
    | boolean b => cases hw; cases b <;> rfl
    | _ => cases hk
  | _ => exact ofWord_toBits hk hw

/-- The value in words, an object by its class and identity.  Floating values have no wording
here. -/
def describe? (className : ObjectRef → String) : Value → Option String
  | boolean b => some ("Boolean(" ++ toString b ++ ")")
  | byte n => some ("Byte(" ++ toString n.toInt ++ ")")
  | char unit => some ("Char(" ++ toString unit.toNat ++ ")")
  | short n => some ("Short(" ++ toString n.toInt ++ ")")
  | int n => some ("Int(" ++ toString n.toInt ++ ")")
  | float _ => none
  | long n => some ("Long(" ++ toString n.toInt ++ ")")
  | double _ => none
  | reference none => some "Null"
  | reference (some o) => some ("Object(" ++ className o ++ "@" ++ Text.hex o.identity ++ ")")
  | void => some "Void"

end Value

end GuestBoundary
