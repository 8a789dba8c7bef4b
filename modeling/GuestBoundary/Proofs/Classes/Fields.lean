import GuestBoundary.Interface.FieldAccess
import GuestBoundary.Proofs.Classes.Layout
import GuestBoundary.Proofs.Heap.Growth
import GuestBoundary.Proofs.Interface.Outcomes

/-!
# Reading and writing instance fields

The interface accepts an instance field for an object whose class inherits from the class that
declares it (`instanceField_eq_ok_iff`).  For the fields of the chain this is enough: each has a
slot of its own.  A field of another supertype was numbered apart from them, so it has no slot or
the slot of a field of the chain (`separate_iff`).
-/

namespace GuestBoundary

variable {H : Type}

namespace Registry

variable {r : Registry} {c : ClassId} {f g : FieldRef}

/-- What allocation makes an object of a class from, and what writes and locks make of it. -/
inductive InstanceOf (r : Registry) (c : ClassId) : Object → Prop where
  | allocated : InstanceOf r c ⟨c, .slots ((r.get c).layout.map Value.default), .free⟩
  | written {o o' : Object} {f : Field} {v : Value} (before : InstanceOf r c o)
    (write : o.setField? f v = some o') : InstanceOf r c o'
  | locked {o : Object} (before : InstanceOf r c o) (m : Monitor) :
    InstanceOf r c { o with monitor := m }

/-- The fields that the interface accepts for objects of a class. -/
structure Accepts (r : Registry) (c : ClassId) (f : FieldRef) : Prop extends
    r.InstanceField f where
  inherits : r.isSubclass c f.owner = true

/-- The field has a slot of its kind in every object of the class, and writing it leaves all other
fields as they are. -/
structure Separate (r : Registry) (c : ClassId) (f : FieldRef) : Prop where
  slot : (r.get c).layout[(r.field f).slot]? = some (r.field f).kind
  readable : ∀ o, r.InstanceOf c o → ∃ v, o.getField? (r.field f) = some v
  others : ∀ g, r.Accepts c g → g ≠ f → ∀ o v o', r.InstanceOf c o →
    v.kind = (r.field f).kind → o.setField? (r.field f) v = some o' →
      o'.getField? (r.field g) = o.getField? (r.field g)

/-! ## Objects -/

/-- The check that guards reading and writing accepts exactly these, of the declared fields. -/
theorem instanceField_eq_ok_iff {w : World H} {b : Bridge} {o : ObjectRef} {id : UInt64}
    (hb : w.bridge = some b) (hid : b.fields.find id = .ok f)
    (hf : f.index < (w.registry.get f.owner).fields.length) :
    Interface.instanceField o id w = .ok f w ↔ w.registry.Accepts (w.classOf o) f := by
  have hworld : (Action.world w : Outcome H EntryError _) = .ok w w := rfl
  rw [Interface.instanceField, Action.bind_ok (Entry.field_eq hb hid), Action.bind_ok hworld]
  constructor
  · intro h
    split at h
    case isTrue => cases h
    case isFalse hinstance =>
      split at h
      case isTrue hinherits => exact ⟨⟨hf, eq_false_of_ne_true hinstance⟩, hinherits⟩
      case isFalse => cases h
  · intro h
    have hinherits : w.isInstance o f.owner = true := h.inherits
    rw [if_neg (by rw [h.isInstance]; decide), if_pos hinherits]
    rfl

/-- An object keeps a value for each slot. -/
theorem InstanceOf.slots {o : Object} (h : r.InstanceOf c o) :
    ∃ values, o.body = .slots values ∧ values.length = (r.get c).layout.length := by
  induction h with
  | allocated => exact ⟨_, rfl, List.length_map ..⟩
  | locked _ _ ih => exact ih
  | @written o o' f v _ write ih =>
    obtain ⟨values, hbody, hlength⟩ := ih
    rw [Object.setField?, hbody] at write
    dsimp only at write
    split at write
    case isTrue =>
      cases write
      exact ⟨_, rfl, (List.length_set ..).trans hlength⟩
    case isFalse => cases write

section Object

variable {o o' : Object} {values : List Value} {v : Value}

theorem getField?_eq (hbody : o.body = .slots values) (hf : r.InstanceField f) :
    o.getField? (r.field f) = values[(r.field f).slot]? := by
  rw [Object.getField?, hbody]
  exact if_neg (by rw [hf.isInstance]; decide)

theorem setField?_eq_some_iff (hbody : o.body = .slots values) (hf : r.InstanceField f) :
    o.setField? (r.field f) v = some o' ↔ (r.field f).slot < values.length ∧
      { o with body := .slots (values.set (r.field f).slot v) } = o' := by
  rw [Object.setField?, hbody]
  dsimp only
  by_cases hlt : (r.field f).slot < values.length
  · rw [if_pos ⟨hf.isInstance, hlt⟩, Option.some_inj, and_iff_right hlt]
  · rw [if_neg fun h => hlt h.2]
    exact ⟨nofun, fun h => absurd h.1 hlt⟩

/-- Writing a field leaves the fields in other slots as they are. -/
theorem getField?_of_setField? (hi : r.InstanceOf c o) (hf : r.InstanceField f)
    (hg : r.InstanceField g) (hslot : (r.field g).slot ≠ (r.field f).slot)
    (hw : o.setField? (r.field f) v = some o') :
    o'.getField? (r.field g) = o.getField? (r.field g) := by
  obtain ⟨values, hbody, -⟩ := hi.slots
  obtain ⟨-, rfl⟩ := (setField?_eq_some_iff hbody hf).1 hw
  rw [getField?_eq hbody hg, getField?_eq rfl hg, List.getElem?_set_ne hslot.symm]

end Object

/-- A kind of values has more than one. -/
theorem exists_value_ne {k : Kind} (hk : k ≠ .void) (old : Option Value) :
    ∃ v, v.kind = k ∧ some v ≠ old := by
  have hsecond : ∃ v, v.kind = k ∧ v ≠ Value.default k := by
    cases k with
    | primitive p =>
      cases p
      · exact ⟨.boolean true, rfl, by decide⟩
      · exact ⟨.byte 1, rfl, by decide⟩
      · exact ⟨.char 1, rfl, by decide⟩
      · exact ⟨.short 1, rfl, by decide⟩
      · exact ⟨.int 1, rfl, by decide⟩
      · exact ⟨.float 1, rfl, by decide⟩
      · exact ⟨.long 1, rfl, by decide⟩
      · exact ⟨.double 1, rfl, by decide⟩
    | object => exact ⟨.reference (some ⟨0⟩), rfl, by decide⟩
    | void => exact absurd rfl hk
  obtain ⟨v, hv, hne⟩ := hsecond
  by_cases hold : some v = old
  · refine ⟨Value.default k, Value.kind_default k, fun h => hne ?_⟩
    exact Option.some.inj (hold.trans h.symm)
  · exact ⟨v, hv, hold⟩

theorem kind_ne_void (f : Field) : f.kind ≠ .void := by
  unfold Field.kind
  cases f.type <;> nofun

/-! ## Which fields keep apart -/

/-- Another accepted field in the slot of a field that keeps apart is the same field. -/
theorem Separate.slot_ne (h : r.Separate c f) (hf : r.InstanceField f) (hg : r.Accepts c g)
    (hne : g ≠ f) : (r.field g).slot ≠ (r.field f).slot := by
  intro hslot
  let o : Object := ⟨c, .slots ((r.get c).layout.map Value.default), .free⟩
  have hi : r.InstanceOf c o := .allocated
  obtain ⟨v, hv, hdiffers⟩ := exists_value_ne (kind_ne_void (r.field f)) (o.getField? (r.field g))
  have hlt : (r.field f).slot < ((r.get c).layout.map Value.default).length := by
    rw [List.length_map]
    exact (List.getElem?_eq_some_iff.1 h.slot).1
  have hsame := h.others g hg hne o v _ hi hv ((setField?_eq_some_iff rfl hf).2 ⟨hlt, rfl⟩)
  rw [getField?_eq rfl hg.toInstanceField, hslot, List.getElem?_set_self hlt] at hsame
  exact hdiffers hsame

/-- A field that keeps apart is declared by a class of the chain. -/
theorem Separate.mem_chain (h : r.Separate c f) (hr : r.Reachable) (hf : r.InstanceField f) :
    f.owner ∈ r.chain c := by
  have wf := hr.wellFormed
  -- its slot belongs to a field of the chain, which is accepted as well
  obtain ⟨g, hg, hd, hslot⟩ := exists_field_of_slot wf.ranked hr.fieldsSlotted
    (List.getElem?_eq_some_iff.1 h.slot).1
  by_cases heq : g = f
  · rwa [← heq]
  · exact absurd hslot (h.slot_ne hf ⟨hg, wf.isSubclass_of_mem_chain hd⟩ heq)

theorem separate_of_mem_chain (hr : r.Reachable) (hf : r.InstanceField f)
    (hd : f.owner ∈ r.chain c)
    (hothers : ∀ g, r.Accepts c g → g.owner ∉ r.chain c →
      (r.field g).slot ≠ (r.field f).slot) : r.Separate c f := by
  have ranked := hr.wellFormed.ranked
  have slotted := hr.fieldsSlotted
  have hslot := layout_of_mem_chain ranked slotted hf hd
  refine ⟨hslot, fun o hi => ?_, fun g hg hne o v o' hi _ hw => ?_⟩
  · obtain ⟨values, hbody, hlength⟩ := hi.slots
    have := (List.getElem?_eq_some_iff.1 hslot).1
    rw [getField?_eq hbody hf]
    exact ⟨_, List.getElem?_eq_getElem (by omega)⟩
  · refine getField?_of_setField? hi hf hg.toInstanceField ?_ hw
    by_cases hd' : g.owner ∈ r.chain c
    · exact fun heq => hne (eq_of_slot_eq ranked slotted hg.toInstanceField hf hd' hd heq)
    · exact hothers g hg hd'

/-- The accepted fields of a class all keep apart just if its chain declares them all.  One of them
keeps apart just if a class of the chain declares it and no accepted field that the chain does not
declare was given the same slot. -/
theorem separate_iff (hr : r.Reachable) (c : ClassId) :
    ((∀ f, r.Accepts c f → r.Separate c f) ↔ ∀ f, r.Accepts c f → f.owner ∈ r.chain c) ∧
      ∀ f, r.Accepts c f → (r.Separate c f ↔ f.owner ∈ r.chain c ∧
        ∀ g, r.Accepts c g → g.owner ∉ r.chain c → (r.field g).slot ≠ (r.field f).slot) := by
  refine ⟨⟨fun h f hf => (h f hf).mem_chain hr hf.toInstanceField, fun h f hf => ?_⟩,
    fun f hf => ⟨fun h => ?_, fun ⟨hd, hothers⟩ => ?_⟩⟩
  · exact separate_of_mem_chain hr hf.toInstanceField (h f hf) fun g hg hd => absurd (h g hg) hd
  · have hd := h.mem_chain hr hf.toInstanceField
    exact ⟨hd, fun g hg hd' => h.slot_ne hf.toInstanceField hg fun heq => hd' (heq ▸ hd)⟩
  · exact separate_of_mem_chain hr hf.toInstanceField hd hothers

/-- An interface with an instance field, a class that implements it and declares an instance field
of its own, and a class that implements it and declares nothing. -/
def letters : Registry :=
  ((basic.defineOrKeep ⟨"Dated", .interface, none, [], [⟨"stamp", "J", false⟩], []⟩).defineOrKeep
    ⟨"Letter", .concrete, some "java/lang/Object", ["Dated"], [⟨"pages", "I", false⟩],
      []⟩).defineOrKeep
    ⟨"Parcel", .concrete, some "java/lang/Object", ["Dated"], [], []⟩

theorem letters_reachable : letters.Reachable :=
  ((Reachable.basic.defineOrKeep (by nofun)).defineOrKeep (by nofun)).defineOrKeep (by nofun)

/-- The field of the interface, accepted for objects of both classes. -/
def stamp : FieldRef := ⟨⟨28⟩, 0⟩

/-- The field that the first class declares. -/
def pages : FieldRef := ⟨⟨29⟩, 0⟩

theorem letters_fields :
    (stamp.index < (letters.get stamp.owner).fields.length ∧
      (letters.field stamp).isStatic = false ∧
      letters.isSubclass ⟨29⟩ stamp.owner = true ∧ letters.isSubclass ⟨30⟩ stamp.owner = true) ∧
    (pages.index < (letters.get pages.owner).fields.length ∧
      (letters.field pages).isStatic = false ∧ letters.isSubclass ⟨29⟩ pages.owner = true) ∧
    stamp.owner ∉ letters.chain ⟨29⟩ ∧ (letters.field stamp).slot = 0 ∧
    (letters.field pages).slot = 0 ∧
    ((letters.get ⟨29⟩).isInstantiable = true ∧ (letters.get ⟨29⟩).layout = [.primitive .int]) ∧
    ((letters.get ⟨30⟩).isInstantiable = true ∧ (letters.get ⟨30⟩).layout = []) := by
  decide +kernel

theorem accepts_stamp : letters.Accepts ⟨29⟩ stamp ∧ letters.Accepts ⟨30⟩ stamp := by
  obtain ⟨⟨hdeclared, hinstance, hletter, hparcel⟩, -⟩ := letters_fields
  exact ⟨⟨⟨hdeclared, hinstance⟩, hletter⟩, ⟨⟨hdeclared, hinstance⟩, hparcel⟩⟩

theorem accepts_pages : letters.Accepts ⟨29⟩ pages := by
  obtain ⟨-, ⟨hdeclared, hinstance, hletter⟩, -⟩ := letters_fields
  exact ⟨⟨hdeclared, hinstance⟩, hletter⟩

/-- The chain of the first class does not declare the field of the interface, which does not keep
apart, and neither does the field that it collides with. -/
theorem stamp_not_separate : ¬ letters.Separate ⟨29⟩ stamp ∧ ¬ letters.Separate ⟨29⟩ pages := by
  obtain ⟨-, -, hchain, hstamp, hpages, -⟩ := letters_fields
  have hiff := (separate_iff letters_reachable ⟨29⟩).2
  refine ⟨fun h => hchain ((hiff stamp accepts_stamp.1).1 h).1, fun h => ?_⟩
  exact ((hiff pages accepts_pages).1 h).2 stamp accepts_stamp.1 hchain (hstamp.trans hpages.symm)

/-- Writing the field of the interface puts a value of another kind into the field that the first
class declares, and an object of the second class has no slot for it. -/
theorem stamp_overwrites_pages :
    letters.Reachable ∧ (letters.get ⟨29⟩).isInstantiable = true ∧
      letters.Accepts ⟨29⟩ stamp ∧ letters.Accepts ⟨29⟩ pages ∧ stamp ≠ pages ∧
      (∃ o o', letters.InstanceOf ⟨29⟩ o ∧ o.setField? (letters.field stamp) (.long 7) = some o' ∧
        o.getField? (letters.field pages) = some (.int 0) ∧
        o'.getField? (letters.field pages) = some (.long 7)) ∧
      (letters.get ⟨30⟩).isInstantiable = true ∧ letters.Accepts ⟨30⟩ stamp ∧
      (letters.get ⟨30⟩).layout[(letters.field stamp).slot]? = none := by
  obtain ⟨-, -, -, hstamp, hpages, ⟨hletter, hlayout⟩, hparcel, hnone⟩ := letters_fields
  have hi : letters.InstanceOf ⟨29⟩ ⟨⟨29⟩, .slots [.int 0], .free⟩ := by
    have := @InstanceOf.allocated letters ⟨29⟩
    rwa [hlayout] at this
  refine ⟨letters_reachable, hletter, accepts_stamp.1, accepts_pages, by decide,
    ⟨_, ⟨⟨29⟩, .slots [.long 7], .free⟩, hi, ?_, ?_, ?_⟩, hparcel, accepts_stamp.2, ?_⟩
  · rw [setField?_eq_some_iff rfl accepts_stamp.1.toInstanceField, hstamp]
    exact ⟨by decide, rfl⟩
  · rw [getField?_eq rfl accepts_pages.toInstanceField, hpages]
    rfl
  · rw [getField?_eq rfl accepts_pages.toInstanceField, hpages]
    rfl
  · rw [hnone]
    rfl

end Registry

end GuestBoundary
