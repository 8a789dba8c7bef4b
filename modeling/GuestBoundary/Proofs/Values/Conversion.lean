import GuestBoundary.Proofs.Interface.FieldValues
import Mathlib.Algebra.Group.Int.Defs
import Mathlib.Algebra.Group.Nat.Defs

/-!
# Conversion of primitives

In compatibility mode a primitive is put into a 64-bit word and cut out of it again as another
type.  Which value comes out depends on the low bytes of the word only (`ofWord_eq_iff`), and as a
signed number the word of an integer is that integer (`toInt_of_toBits`).  From these two facts
follow what a conversion into a wide enough type and back gives, and what an integer becomes
(`Converts`).
-/

namespace GuestBoundary

namespace Primitive

/-- The types whose values are numbers: the integral ones but for truth values. -/
def isInteger (p : Primitive) : Bool := p.isIntegral && p != boolean

/-- An integer cut down to the bytes of a type: code units have no sign, other integers are read
with theirs. -/
def wrap (p : Primitive) (n : Int) : Int :=
  match p with
  | char => n % 2 ^ (8 * p.width)
  | p => n.bmod (2 ^ (8 * p.width))

end Primitive

namespace Value

/-- The integer that a value of an integer type stands for. -/
def integer? : Value → Option Int
  | byte n => some n.toInt
  | char unit => some unit.toNat
  | short n => some n.toInt
  | int n => some n.toInt
  | long n => some n.toInt
  | _ => none

/-! ### Words -/

/-- Every primitive has a word. -/
theorem exists_toBits {v : Value} {p : Primitive} (hk : v.kind = p) : ∃ w, v.toBits = some w := by
  cases v <;> cases hk <;> exact ⟨_, rfl⟩

/-- Only a truth value can be true in other bytes than the lowest. -/
theorem ofBits_eq_ofWord {p : Primitive} (hp : p ≠ .boolean) (w : UInt64) :
    ofBits p w = ofWord p w := by
  cases p with
  | boolean => exact absurd rfl hp
  | _ => rfl

/-- A word read as a type shows its low bytes, as many as the type has, and nothing else.  Truth
values are left out: they do not show which byte it was that is not zero. -/
theorem ofWord_eq_iff {p : Primitive} (hp : p ≠ .boolean) {a b : UInt64} :
    ofWord p a = ofWord p b ↔ a.toNat % 2 ^ (8 * p.width) = b.toNat % 2 ^ (8 * p.width) := by
  have h8 : a.toUInt8 = b.toUInt8 ↔ a.toNat % 2 ^ 8 = b.toNat % 2 ^ 8 := by
    rw [← UInt8.toNat_inj, UInt64.toNat_toUInt8, UInt64.toNat_toUInt8]
  have h16 : a.toUInt16 = b.toUInt16 ↔ a.toNat % 2 ^ 16 = b.toNat % 2 ^ 16 := by
    rw [← UInt16.toNat_inj, UInt64.toNat_toUInt16, UInt64.toNat_toUInt16]
  have h32 : a.toUInt32 = b.toUInt32 ↔ a.toNat % 2 ^ 32 = b.toNat % 2 ^ 32 := by
    rw [← UInt32.toNat_inj, UInt64.toNat_toUInt32, UInt64.toNat_toUInt32]
  have h64 : a = b ↔ a.toNat % 2 ^ 64 = b.toNat % 2 ^ 64 := by
    rw [Nat.mod_eq_of_lt a.toNat_lt, Nat.mod_eq_of_lt b.toNat_lt, UInt64.toNat_inj]
  cases p with
  | boolean => exact absurd rfl hp
  | byte =>
    rw [ofWord, ofWord, byte.injEq]
    exact (Int8.toBitVec_inj.symm.trans UInt8.toBitVec_inj).trans h8
  | char => rw [ofWord, ofWord, char.injEq]; exact h16
  | short =>
    rw [ofWord, ofWord, short.injEq]
    exact (Int16.toBitVec_inj.symm.trans UInt16.toBitVec_inj).trans h16
  | int =>
    rw [ofWord, ofWord, int.injEq]
    exact (Int32.toBitVec_inj.symm.trans UInt32.toBitVec_inj).trans h32
  | float => rw [ofWord, ofWord, float.injEq]; exact h32
  | long =>
    rw [ofWord, ofWord, long.injEq]
    exact (Int64.toBitVec_inj.symm.trans UInt64.toBitVec_inj).trans h64
  | double => rw [ofWord, ofWord, double.injEq]; exact h64

/-- A word read as a type of `p`'s width or more, and what was read put into a word again: the low
bytes that `p` reads are the same. -/
theorem toBits_ofWord_mod {p q : Primitive} (hq : q ≠ .boolean) (hw : p.width ≤ q.width)
    {a b : UInt64} (hb : (ofWord q a).toBits = some b) :
    b.toNat % 2 ^ (8 * p.width) = a.toNat % 2 ^ (8 * p.width) := by
  have hsame := (ofWord_eq_iff hq).1 (ofWord_toBits (kind_ofWord q a) hb)
  have hdvd : 2 ^ (8 * p.width) ∣ 2 ^ (8 * q.width) :=
    Nat.pow_dvd_pow 2 (Nat.mul_le_mul_left 8 hw)
  calc b.toNat % 2 ^ (8 * p.width)
      = b.toNat % 2 ^ (8 * q.width) % 2 ^ (8 * p.width) := (Nat.mod_mod_of_dvd _ hdvd).symm
    _ = a.toNat % 2 ^ (8 * q.width) % 2 ^ (8 * p.width) := by rw [hsame]
    _ = a.toNat % 2 ^ (8 * p.width) := Nat.mod_mod_of_dvd _ hdvd

/-- A truth value's word keeps its meaning in every type: it is one or zero in all of them. -/
theorem toBits_ofBits_boolean (b : Bool) (q : Primitive) :
    ((ofBits q (if b then 1 else 0)).toBits).map (ofBits .boolean) = some (boolean b) := by
  cases b <;> cases q <;> rfl

/-! ### Integers -/

/-- As a signed number the word of an integer is the integer itself. -/
theorem toInt_of_toBits {v : Value} {n : Int} (hn : v.integer? = some n) {w : UInt64}
    (hw : v.toBits = some w) : w.toInt64.toInt = n := by
  cases v with
  | byte m => cases hn; cases hw; exact Int8.toInt_toInt64 m
  | char u =>
    cases hn; cases hw
    have hlt : u.toNat < 2 ^ 16 := u.toNat_lt
    show (u.toUInt64.toBitVec).toInt = u.toNat
    rw [BitVec.toInt_eq_toNat_of_lt]
    · exact congrArg Int.ofNat (UInt16.toNat_toUInt64 u)
    · show 2 * u.toUInt64.toNat < 2 ^ 64
      rw [UInt16.toNat_toUInt64]
      omega
  | short m => cases hn; cases hw; exact Int16.toInt_toInt64 m
  | int m => cases hn; cases hw; exact Int32.toInt_toInt64 m
  | long m => cases hn; cases hw; rfl
  | _ => cases hn

/-- The low bytes of a word as a signed number. -/
theorem toInt_setWidth (w : UInt64) {n : Nat} (hn : n ≤ 64) :
    (w.toBitVec.setWidth n).toInt = w.toInt64.toInt.bmod (2 ^ n) := by
  show _ = w.toBitVec.toInt.bmod (2 ^ n)
  rw [BitVec.toInt_setWidth, BitVec.toInt_eq_toNat_bmod w.toBitVec,
    Int.bmod_bmod_of_dvd (Nat.pow_dvd_pow 2 hn)]

/-- What a word reads as in an integer type is its number cut down to the type. -/
theorem integer?_ofWord {p : Primitive} (hp : p.isInteger = true) (w : UInt64) :
    (ofWord p w).integer? = some (p.wrap w.toInt64.toInt) := by
  cases p with
  | byte => exact congrArg some (toInt_setWidth w (by decide : 8 ≤ 64))
  | char =>
    refine congrArg some ?_
    show (w.toUInt16.toNat : Int) = w.toBitVec.toInt % 2 ^ 16
    rw [UInt64.toNat_toUInt16, BitVec.toInt_eq_toNat_bmod]
    have hdvd : ((2 : Int) ^ 16) ∣ ((2 ^ 64 : Nat) : Int) := by decide
    have hmod := Int.emod_emod_of_dvd (Int.bmod (w.toNat : Int) (2 ^ 64)) hdvd
    rw [Int.bmod_emod, Int.emod_emod_of_dvd _ hdvd] at hmod
    exact (Int.natCast_emod _ _).trans hmod
  | short => exact congrArg some (toInt_setWidth w (by decide : 16 ≤ 64))
  | int => exact congrArg some (toInt_setWidth w (by decide : 32 ≤ 64))
  | long =>
    have hcut := toInt_setWidth w (Nat.le_refl 64)
    rw [BitVec.setWidth_eq] at hcut
    exact congrArg some hcut
  | _ => cases hp

end Value

namespace ConversionMode

variable {v : Value} {nulls : NullPolicy}

/-- In compatibility mode a primitive is cut out of its word, also where it has the type that is
wanted. -/
theorem convert_compatibility {bits : UInt64} (hbits : v.toBits = some bits) (p : Primitive) :
    convert .compatibility v p nulls = .ok (Value.ofBits p bits) := by
  by_cases hk : v.kind = p
  · rw [convert_of_kind hk, Value.ofBits_toBits hk hbits]
  · show toPrimitive .compatibility v p nulls = _
    unfold toPrimitive
    rw [if_neg hk]
    cases v <;> cases hbits <;> rfl

/-- Into a type that is wide enough, and back. -/
theorem convert_back {k p : Primitive} (hk : v.kind = k) (hwidth : k.width ≤ p.width)
    (hboolean : p = .boolean → k = .boolean) (nulls nulls' : NullPolicy) :
    ∃ u, convert .compatibility v p nulls = .ok u ∧
      convert .compatibility u k nulls' = .ok v := by
  obtain ⟨a, ha⟩ := Value.exists_toBits hk
  obtain ⟨b, hb⟩ := Value.exists_toBits (Value.kind_ofBits p a)
  refine ⟨Value.ofBits p a, convert_compatibility ha p, (convert_compatibility hb k).trans ?_⟩
  refine congrArg Except.ok ?_
  by_cases hkb : k = .boolean
  · subst hkb
    cases v with
    | boolean t =>
      have hround := Value.toBits_ofBits_boolean t p
      cases ha
      rw [hb] at hround
      exact Option.some.inj hround
    | _ => cases hk
  · -- neither type is that of truth values, so both words are read by their low bytes
    have hpb : p ≠ .boolean := fun h => hkb (hboolean h)
    rw [Value.ofBits_eq_ofWord hpb] at hb
    calc Value.ofBits k b = Value.ofWord k b := Value.ofBits_eq_ofWord hkb b
      _ = Value.ofWord k a := (Value.ofWord_eq_iff hkb).2 (Value.toBits_ofWord_mod hpb hwidth hb)
      _ = v := Value.ofWord_toBits hk ha

/-- An integer becomes its remainder in the range of the integer type that is wanted. -/
theorem convert_integer {n : Int} (hn : v.integer? = some n) {p : Primitive}
    (hp : p.isInteger = true) :
    ∃ u, convert .compatibility v p nulls = .ok u ∧ u.integer? = some (p.wrap n) := by
  obtain ⟨bits, hbits⟩ : ∃ bits, v.toBits = some bits := by
    cases v <;> cases hn <;> exact ⟨_, rfl⟩
  refine ⟨_, convert_compatibility hbits p, ?_⟩
  have hpb : p ≠ .boolean := by
    rintro rfl
    cases hp
  rw [Value.ofBits_eq_ofWord hpb, Value.integer?_ofWord hp, Value.toInt_of_toBits hn hbits]

/-- In strict mode a primitive is converted to its own kind and discarded as `void`. -/
theorem convert_strict {k : Primitive} (hk : v.kind = k) (want : Kind) :
    convert .strict v want nulls =
      if want = k then .ok v
      else if want = .void then .ok .void
      else .error (.strict want k) := by
  cases want with
  | void => rfl
  | object => cases v <;> cases hk <;> rfl
  | primitive p =>
    show toPrimitive .strict v p nulls = _
    unfold toPrimitive
    by_cases hp : v.kind = p
    · rw [if_pos hp, if_pos (hp.symm.trans hk)]
    · rw [if_neg hp, if_neg fun h => hp (hk.trans h.symm)]
      cases v <;> cases hk <;> rfl

/-- Nothing at all, as null or as `void`, stands for a primitive only where the caller says so. -/
theorem convert_nothing (mode : ConversionMode) (hv : v = .null ∨ v = .void) (p : Primitive)
    (nulls : NullPolicy) :
    mode.convert v p nulls =
      match nulls with
      | .zero => .ok (Value.zero p)
      | .reject => .error (.null p) := by
  rcases hv with rfl | rfl <;> cases nulls <;> rfl

/-- What becomes of a value that meets a function made for another kind. -/
structure Converts (v : Value) : Prop where
  /-- In compatibility mode a primitive comes back as it was from every type that is as wide as its
  own, unless truth values are asked to carry something else. -/
  back : ∀ (k p : Primitive) (nulls nulls' : NullPolicy), v.kind = k → k.width ≤ p.width →
    (p = .boolean → k = .boolean) →
    ∃ u, convert .compatibility v p nulls = .ok u ∧ convert .compatibility u k nulls' = .ok v
  /-- What was converted has the kind that was wanted. -/
  kind : ∀ (mode : ConversionMode) (want : Kind) (nulls : NullPolicy) (u : Value),
    mode.convert v want nulls = .ok u → u.kind = want
  /-- Between integer types the integer is cut down to the type that is wanted. -/
  integer : ∀ (n : Int) (p : Primitive) (nulls : NullPolicy), v.integer? = some n →
    p.isInteger = true →
    ∃ u, convert .compatibility v p nulls = .ok u ∧ u.kind = p ∧ u.integer? = some (p.wrap n)
  /-- A primitive is true if its word is not zero. -/
  truth : ∀ (bits : UInt64) (nulls : NullPolicy), v.toBits = some bits →
    convert .compatibility v Primitive.boolean nulls = .ok (.boolean (bits != 0))
  /-- In strict mode a primitive is of the kind that is wanted, and stays as it is, or nothing is
  wanted, and then it is discarded. -/
  strict : ∀ (k : Primitive) (want : Kind) (nulls : NullPolicy), v.kind = k →
    convert .strict v want nulls =
      if want = k then .ok v
      else if want = .void then .ok .void
      else .error (.strict want k)
  /-- In both modes null and `void` are a primitive's zero where the caller allows it, and refused
  where not. -/
  nothing : ∀ (mode : ConversionMode) (p : Primitive) (nulls : NullPolicy),
    v = .null ∨ v = .void →
    mode.convert v p nulls =
      match nulls with
      | .zero => .ok (Value.zero p)
      | .reject => .error (.null p)

theorem converts (v : Value) : Converts v where
  back _ _ nulls nulls' hk hwidth hboolean := convert_back hk hwidth hboolean nulls nulls'
  kind _ _ _ _ h := kind_of_convert h
  integer n p nulls hn hp := by
    obtain ⟨u, hu, hinteger⟩ := convert_integer hn hp
    exact ⟨u, hu, kind_of_convert hu, hinteger⟩
  truth bits nulls hbits := convert_compatibility hbits .boolean
  strict _ want _ hk := convert_strict hk want
  nothing mode p nulls hv := convert_nothing mode hv p nulls

/-- Cut to a byte with its sign, and the bits of a number that is none carried through a `long`. -/
example :
    convert .compatibility (.int 0x180) Primitive.byte .reject = .ok (.byte (-128)) ∧
      convert .compatibility (.float 0x7fa00001) Primitive.long .reject = .ok (.long 0x7fa00001) ∧
      convert .compatibility (.long 0x7fa00001) Primitive.float .reject = .ok (.float 0x7fa00001) := by
  decide

end ConversionMode

end GuestBoundary
