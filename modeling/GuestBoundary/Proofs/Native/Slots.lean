import GuestBoundary.Elements
import GuestBoundary.Proofs.Native.Bindings
import GuestBoundary.Proofs.Native.Marshalling
import GuestBoundary.Proofs.Values.Conversion

/-!
# Reading argument slots

The arguments of a call are taken from a cursor, one slot for each parameter, and a handle among
them is looked up as soon as it is taken.  A lookup may be anything that has effects, so the cursor
runs in an arbitrary monad (`popAll`); where lookups have none it is `readAll`
(`readAll_eq_popAll`).  All lookups of a call are those of its reference parameters in their order,
and what the slots give besides does not depend on them (`popAll_run`).
-/

namespace GuestBoundary

/-! ## Bytes of a word -/

theorem natOfBytes_bytesOfNat (n w : Nat) : natOfBytes (bytesOfNat n w) = w % 256 ^ n := by
  induction n generalizing w with
  | zero => exact (Nat.mod_one w).symm
  | succ n ih =>
    have hbyte : (UInt8.ofNat (w % 256)).toNat = w % 256 :=
      UInt8.toNat_ofNat_of_lt' (Nat.mod_lt w (by decide))
    rw [bytesOfNat, natOfBytes, hbyte, ih, Nat.pow_succ', Nat.mod_mul]

theorem take_bytesOfNat {m n : Nat} (h : m ≤ n) (w : Nat) :
    (bytesOfNat n w).take m = bytesOfNat m w := by
  induction m generalizing n w with
  | zero => rfl
  | succ m ih =>
    obtain ⟨n, rfl⟩ : ∃ k, n = k + 1 := ⟨n - 1, by omega⟩
    rw [bytesOfNat, List.take_succ_cons, ih (Nat.le_of_succ_le_succ h), bytesOfNat]

namespace Slot

/-- The eight bytes of a slot as they lie in memory. -/
def bytes (slot : Slot) : List UInt8 := bytesOfNat 8 slot.toNat

theorem width_le (p : Primitive) : p.width ≤ 8 := by cases p <;> decide

/-- What a slot gives a primitive parameter is spelled by the first bytes of the slot, as many as
the type has. -/
theorem ofWord_eq_ofBytes (p : Primitive) (slot : Slot) :
    Value.ofWord p slot = Value.ofBytes p (slot.bytes.take p.width) := by
  have hword : natOfBytes (slot.bytes.take p.width) = slot.toNat % 2 ^ (8 * p.width) := by
    rw [bytes, take_bytesOfNat (width_le p), natOfBytes_bytesOfNat, Nat.pow_mul]
  have hlt : slot.toNat % 2 ^ (8 * p.width) < 2 ^ 64 :=
    Nat.lt_of_le_of_lt (Nat.mod_le _ _) slot.toNat_lt
  have hsame : slot.toNat % 2 ^ (8 * p.width) =
      (UInt64.ofNat (natOfBytes (slot.bytes.take p.width))).toNat % 2 ^ (8 * p.width) := by
    rw [hword, UInt64.toNat_ofNat_of_lt' hlt, Nat.mod_mod]
  rw [Value.ofBytes]
  by_cases hp : p = .boolean
  · subst hp
    have hbyte : slot.toUInt8 =
        (UInt64.ofNat (natOfBytes (slot.bytes.take Primitive.boolean.width))).toUInt8 := by
      rw [← UInt8.toNat_inj, UInt64.toNat_toUInt8, UInt64.toNat_toUInt8]
      exact hsame
    rw [Value.ofWord, Value.ofWord, hbyte]
  · exact (Value.ofWord_eq_iff hp).2 hsame

/-- A slot whose first byte is zero, and no other, is false. -/
theorem ofWord_boolean (slot : Slot) :
    Value.ofWord .boolean slot = .boolean (decide (slot.bytes.head? ≠ some 0)) := by
  have hhead : slot.bytes.head? = some slot.toUInt8 := by
    refine congrArg some ?_
    rw [← UInt8.toNat_inj, UInt64.toNat_toUInt8]
    exact UInt8.toNat_ofNat_of_lt' (Nat.mod_lt _ (by decide))
  rw [Value.ofWord, hhead]
  by_cases hzero : slot.toUInt8 = 0 <;> simp [hzero]

/-! ## The cursor -/

section Cursor

variable {m : Type → Type} [Monad m]

/-- Takes the next slot; behind the last one everything is zero. -/
def pop : StateT (List Slot) m Slot := fun slots => pure (slots.headD 0, slots.tail)

/-- Takes the value of one parameter. -/
def popValue (resolve : Handle → m (Option ObjectRef)) : Kind → StateT (List Slot) m Value
  | .primitive p => do
    let slot ← pop
    return Value.ofWord p slot
  | .object => do
    let slot ← pop
    let o ← resolve ⟨slot⟩
    return .reference o
  | .void => return .void

/-- Takes the values of the parameters, in their order. -/
def popAll (resolve : Handle → m (Option ObjectRef)) (ks : List Kind) :
    StateT (List Slot) m (List Value) :=
  ks.mapM (popValue resolve)

end Cursor

/-- The values of the parameters where the lookups have answered `os`. -/
def assemble : List Kind → List Slot → List (Option ObjectRef) → List Value
  | .primitive p :: ks, slot :: slots, os => Value.ofWord p slot :: assemble ks slots os
  | .object :: ks, _ :: slots, o :: os => .reference o :: assemble ks slots os
  | _, _, _ => []

section Run

variable {m : Type → Type} [Monad m] [LawfulMonad m] (resolve : Handle → m (Option ObjectRef))
  (slot : Slot) (slots : List Slot)

omit [LawfulMonad m] in
theorem pop_run : (pop : StateT (List Slot) m Slot).run (slot :: slots) = pure (slot, slots) := rfl

theorem popValue_primitive (p : Primitive) :
    (popValue resolve (.primitive p)).run (slot :: slots) =
      pure (Value.ofWord p slot, slots) := by
  simp only [popValue, StateT.run_bind, StateT.run_pure, pop_run, pure_bind]

theorem popValue_object :
    (popValue resolve .object).run (slot :: slots) =
      (fun o => (.reference o, slots)) <$> resolve ⟨slot⟩ := by
  simp only [popValue, StateT.run_bind, StateT.run_pure, StateT.run_monadLift, monadLift_self,
    pop_run, bind_assoc, pure_bind, map_eq_pure_bind]

theorem popAll_cons (k : Kind) (ks : List Kind) :
    (popAll resolve (k :: ks)).run slots =
      (popValue resolve k).run slots >>= fun r =>
        (fun s => (r.1 :: s.1, s.2)) <$> (popAll resolve ks).run r.2 := by
  simp only [popAll, List.mapM_cons, StateT.run_bind, StateT.run_pure, map_eq_pure_bind]

end Run

/-- Where lookups have no effects, the cursor reads as `readAll`. -/
theorem readAll_eq_popAll (resolve : Handle → Option ObjectRef) (ks : List Kind)
    (slots : List Slot) :
    readAll resolve ks slots = ((popAll (m := Id) resolve ks).run slots).1 := by
  induction ks generalizing slots with
  | nil => rfl
  | cons k ks ih =>
    rw [popAll_cons]
    cases k <;> cases slots <;> exact congrArg _ (ih _)

/-- There is a slot for every parameter, and no parameter is `void`. -/
inductive Fits : List Kind → List Slot → Prop where
  | nil (rest : List Slot) : Fits [] rest
  | primitive {p : Primitive} {slot : Slot} {ks : List Kind} {slots : List Slot}
      (rest : Fits ks slots) : Fits (.primitive p :: ks) (slot :: slots)
  | object {slot : Slot} {ks : List Kind} {slots : List Slot} (rest : Fits ks slots) :
      Fits (.object :: ks) (slot :: slots)

variable {ks : List Kind} {slots : List Slot}

theorem fits (hvoid : Kind.void ∉ ks) (hlength : ks.length ≤ slots.length) : Fits ks slots := by
  induction ks generalizing slots with
  | nil => exact .nil slots
  | cons k ks ih =>
    obtain ⟨slot, slots, rfl⟩ := List.exists_cons_of_length_pos (Nat.lt_of_lt_of_le
      (Nat.succ_pos _) hlength)
    have hrest := ih (fun h => hvoid (List.mem_cons_of_mem k h)) (Nat.le_of_succ_le_succ hlength)
    cases k with
    | primitive p => exact .primitive hrest
    | object => exact .object hrest
    | void => exact absurd List.mem_cons_self hvoid

/-- The cursor looks up the handles among the arguments, each once and in order, makes the values
from the answers, and stops behind the last parameter's slot. -/
theorem popAll_run {m : Type → Type} [Monad m] [LawfulMonad m]
    (resolve : Handle → m (Option ObjectRef)) (h : Fits ks slots) :
    (popAll resolve ks).run slots =
      (fun os => (assemble ks slots os, slots.drop ks.length)) <$>
        (handles ks slots).mapM resolve := by
  induction h with
  | nil rest => simp [popAll, handles, assemble]
  | primitive _ ih =>
    rw [popAll_cons, popValue_primitive, pure_bind, ih, Functor.map_map]
    rfl
  | object _ ih =>
    rw [popAll_cons, popValue_object, handles, List.mapM_cons]
    simp only [map_eq_pure_bind, bind_assoc, pure_bind, ih]
    rfl

/-- The handles are the slots of the reference parameters. -/
theorem handles_eq (h : Fits ks slots) :
    handles ks slots =
      ((ks.zip slots).filter fun p => p.1 = .object).map fun p => ⟨p.2⟩ := by
  induction h with
  | nil => rfl
  | primitive _ ih => exact ih
  | object _ ih => exact congrArg _ ih

/-! ## What the slots give -/

/-- The reference of a value that is one. -/
def reference? : Value → Option (Option ObjectRef)
  | .reference o => some o
  | _ => none

/-- The values that slots give the parameters, where the lookups have answered `os`. -/
structure Popped (ks : List Kind) (slots : List Slot) (os : List (Option ObjectRef))
    (vs : List Value) : Prop where
  /-- There is one value for each parameter, and it has the kind of the parameter. -/
  kinds : vs.map Value.kind = ks
  /-- A primitive is spelled by the first bytes of its parameter's slot. -/
  primitive : ∀ (i : Nat) (p : Primitive), ks[i]? = some (.primitive p) →
    vs[i]? = slots[i]?.map fun slot => Value.ofBytes p (slot.bytes.take p.width)
  /-- A truth value is false exactly if the first byte of its slot is zero. -/
  boolean : ∀ i : Nat, ks[i]? = some (.primitive .boolean) →
    vs[i]? = slots[i]?.map fun slot => .boolean (decide (slot.bytes.head? ≠ some 0))
  /-- The references are the answers, in order. -/
  references : vs.filterMap reference? = os

theorem Popped.nil : Popped [] slots [] [] where
  kinds := rfl
  primitive _ _ h := nomatch h
  boolean _ h := nomatch h
  references := rfl

variable {os : List (Option ObjectRef)} {vs : List Value} {slot : Slot}

theorem Popped.cons_primitive (h : Popped ks slots os vs) (p : Primitive) :
    Popped (.primitive p :: ks) (slot :: slots) os (Value.ofWord p slot :: vs) where
  kinds := by rw [List.map_cons, Value.kind_ofWord, h.kinds]
  primitive i q hq := by
    cases i with
    | zero =>
      cases hq
      exact congrArg some (ofWord_eq_ofBytes p slot)
    | succ i => exact h.primitive i q hq
  boolean i hq := by
    cases i with
    | zero =>
      cases hq
      exact congrArg some (ofWord_boolean slot)
    | succ i => exact h.boolean i hq
  references := by
    have hnone : reference? (Value.ofWord p slot) = none := by cases p <;> rfl
    rw [List.filterMap_cons_none hnone, h.references]

theorem Popped.cons_object (h : Popped ks slots os vs) (o : Option ObjectRef) :
    Popped (.object :: ks) (slot :: slots) (o :: os) (.reference o :: vs) where
  kinds := congrArg _ h.kinds
  primitive i q hq := by
    cases i with
    | zero => cases hq
    | succ i => exact h.primitive i q hq
  boolean i hq := by
    cases i with
    | zero => cases hq
    | succ i => exact h.boolean i hq
  references := congrArg _ h.references

/-- What is made of the answers has the right kinds and comes from the right places. -/
theorem popped_assemble (h : Fits ks slots) (hos : os.length = (handles ks slots).length) :
    Popped ks slots os (assemble ks slots os) := by
  induction h generalizing os with
  | nil rest =>
    obtain rfl := List.eq_nil_of_length_eq_zero hos
    exact .nil
  | primitive _ ih => exact (ih hos).cons_primitive _
  | object _ ih =>
    cases os with
    | nil => cases hos
    | cons o os => exact (ih (Nat.succ.inj hos)).cons_object o

/-- Lookups without effects answer all handles at once. -/
theorem readAll_eq_assemble (resolve : Handle → Option ObjectRef) (h : Fits ks slots) :
    readAll resolve ks slots = assemble ks slots ((handles ks slots).map resolve) := by
  rw [readAll_eq_popAll, popAll_run (m := Id) resolve h]
  show assemble ks slots (Id.run ((handles ks slots).mapM resolve)) = _
  rw [List.idRun_mapM]
  rfl

/-! ## Slots that hold values -/

/-- A slot holds a primitive in its first bytes, whatever the others are, and an object as a handle
that stands for it. -/
inductive Holds (resolve : Handle → Option ObjectRef) : Value → Slot → Prop where
  | primitive {p : Primitive} {v : Value} {slot : Slot} (kind : v.kind = p)
      (bytes : slot.bytes.take p.width = v.bytes p) : Holds resolve v slot
  | reference {o : Option ObjectRef} {slot : Slot} (stands : resolve ⟨slot⟩ = o) :
      Holds resolve (.reference o) slot

variable {resolve : Handle → Option ObjectRef}

/-- What a slot holds is read from it. -/
theorem Holds.read_eq {v : Value} (h : Holds resolve v slot) : read resolve v.kind slot = v := by
  cases h with
  | @primitive p _ _ hk hbytes =>
    obtain ⟨bits, hbits⟩ := Value.exists_toBits hk
    have hword : Value.ofWord p slot = Value.ofWord p bits := by
      rw [ofWord_eq_ofBytes p slot, ofWord_eq_ofBytes p bits, hbytes, Value.bytes, hbits,
        bytes, take_bytesOfNat (width_le p)]
      rfl
    rw [hk]
    exact hword.trans (Value.ofWord_toBits hk hbits)
  | reference hstands => exact congrArg Value.reference hstands

/-- What the slots hold is what is read. -/
theorem readAll_of_holds {used rest : List Slot} (h : List.Forall₂ (Holds resolve) vs used) :
    readAll resolve (vs.map Value.kind) (used ++ rest) = vs := by
  induction h with
  | nil => rfl
  | @cons v slot vs used hv _ ih =>
    have hread := hv.read_eq
    have hvoid : v.kind ≠ .void := by
      cases hv with
      | primitive hk => rw [hk]; exact nofun
      | reference => exact nofun
    rw [List.map_cons, List.cons_append, readAll, hread, ih]
    exact hvoid

/-! ## Signatures -/

/-- How slots are read as the arguments that `ks` calls for. -/
structure ReadAs (ks : List Kind) (slots : List Slot) : Prop where
  /-- The handles among the arguments are the slots of the reference parameters, in order. -/
  handles : handles ks slots =
    ((ks.zip slots).filter fun p => p.1 = .object).map fun p => ⟨p.2⟩
  /-- Whatever effects a lookup has, every handle is looked up once and in order, the values are
  made from the slots and the answers, and the cursor stops behind the last parameter's slot. -/
  cursor : ∃ values : List (Option ObjectRef) → List Value,
    (∀ os : List (Option ObjectRef), os.length = (Slot.handles ks slots).length →
      Popped ks slots os (values os)) ∧
    ∀ {m : Type → Type} [Monad m] [LawfulMonad m] (resolve : Handle → m (Option ObjectRef)),
      (popAll resolve ks).run slots =
        (fun os => (values os, slots.drop ks.length)) <$> (Slot.handles ks slots).mapM resolve
  /-- `readAll` is the cursor with lookups that have no effects. -/
  pure : ∀ resolve : Handle → Option ObjectRef,
    readAll resolve ks slots = ((popAll (m := Id) resolve ks).run slots).1 ∧
      Popped ks slots ((Slot.handles ks slots).map resolve) (readAll resolve ks slots)
  /-- Values that the slots hold are read back, whatever stands in the bytes that they leave and in
  the slots behind them. -/
  stored : ∀ (resolve : Handle → Option ObjectRef) (vs : List Value) (used rest : List Slot),
    vs.map Value.kind = ks → slots = used ++ rest → List.Forall₂ (Holds resolve) vs used →
    readAll resolve ks slots = vs

end Slot

/-- No parameter is `void`. -/
theorem Signature.void_notMem_params {descriptor : String} {s : Signature}
    (hs : Signature.parse descriptor = .ok s) : Kind.void ∉ s.params := by
  rw [Signature.parse] at hs
  cases hm : MethodType.parse descriptor with
  | error e =>
    rw [hm] at hs
    cases hs
  | ok t =>
    rw [hm] at hs
    cases hs
    intro hmem
    obtain ⟨field, -, hfield⟩ := List.mem_map.1 hmem
    cases field <;> cases hfield

/-- The arguments of every signature are read from every array of slots that has one for each. -/
theorem arguments_are_read {descriptor : String} {s : Signature}
    (hs : Signature.parse descriptor = .ok s) {slots : List Slot}
    (hlength : s.params.length ≤ slots.length) : Slot.ReadAs s.params slots := by
  have hfits := Slot.fits (Signature.void_notMem_params hs) hlength
  refine ⟨Slot.handles_eq hfits, ⟨Slot.assemble s.params slots, ?_, ?_⟩, ?_, ?_⟩
  · exact fun os hos => Slot.popped_assemble hfits hos
  · exact fun resolve => Slot.popAll_run resolve hfits
  · intro resolve
    refine ⟨Slot.readAll_eq_popAll resolve s.params slots, ?_⟩
    rw [Slot.readAll_eq_assemble resolve hfits]
    exact Slot.popped_assemble hfits (List.length_map _)
  · rintro resolve vs used rest hkinds rfl hholds
    rw [← hkinds]
    exact Slot.readAll_of_holds hholds

/-- The type of a method that takes a truth value, an array and a number. -/
def mixedType : MethodType :=
  ⟨[.primitive .boolean, .array (.primitive .int), .primitive .short], none⟩

/-- Its arguments with other bytes behind the primitives, and a slot too many. -/
def mixedSlots : List Slot := [0xffffffffffffff00, 17, 0xabcdabcdabcdffff, 5]

/-- The other bytes do not count. -/
theorem mixed_arguments_are_read :
    Signature.parse mixedType.text = .ok (.ofType mixedType) ∧
    (Signature.ofType mixedType).params.length ≤ mixedSlots.length ∧
    Slot.readAll (fun _ => some ⟨4⟩) (Signature.ofType mixedType).params mixedSlots =
      [.boolean false, .ofObject ⟨4⟩, .short (-1)] := by
  have hparse := Signature.parse_text mixedType
  have hlength : (Signature.ofType mixedType).params.length ≤ mixedSlots.length := by decide
  refine ⟨hparse, hlength, (arguments_are_read hparse hlength).stored _ _
    [0xffffffffffffff00, 17, 0xabcdabcdabcdffff] [5] rfl rfl ?_⟩
  exact .cons (.primitive rfl (by decide))
    (.cons (.reference rfl) (.cons (.primitive rfl (by decide)) .nil))

end GuestBoundary
