import GuestBoundary.Proofs.Classes.Fields
import GuestBoundary.Proofs.Classes.Lookup
import GuestBoundary.Proofs.Classes.Subtypes
import GuestBoundary.Proofs.Effects.Untouched
import GuestBoundary.Proofs.Guest.Order

/-!
# Slots and their kinds

The value of a field is in a slot of an object or of a class (`Place`), and the class says of which
kind the values of the slot are.  A state is `Kinded` if every slot holds a value of its kind.  A
run starts like that, and definitions, new instances and the throwables of faults keep it; so does a
write of a value of the field's kind into a field of the chain (`Kinded.setField`) or into a static
field (`Kinded.setStatic`).
-/

namespace GuestBoundary

variable {H : Type}

/-! ## Slots of static fields -/

namespace Registry

variable {r : Registry} {c : ClassId} {k : Class} {f : FieldRef}

/-- The static fields among `fields` stand at the places of their slots. -/
def StaticsNumbered (fields : List Field) : Prop :=
  ∀ f ∈ fields, f.isStatic = true → (fields.filter Field.isStatic)[f.slot]? = some f

theorem staticsNumbered_nil : StaticsNumbered [] := by
  intro f hf
  cases hf

theorem StaticsNumbered.concat {fields : List Field} (h : StaticsNumbered fields) {f : Field}
    (hf : f.isStatic = true → f.slot = (fields.filter Field.isStatic).length) :
    StaticsNumbered (fields ++ [f]) := by
  intro g hg hstatic
  rw [List.filter_append]
  rcases List.mem_append.1 hg with hg | hg
  · have hold := h g hg hstatic
    rw [List.getElem?_append_left (List.getElem?_eq_some_iff.1 hold).1, hold]
  · obtain rfl := List.mem_singleton.1 hg
    rw [hf hstatic, List.filter_cons_of_pos hstatic, List.filter_nil, List.getElem?_concat_length]

/-- Static fields are numbered in the order in which they are declared. -/
theorem staticsNumbered_of_layFields {layout layout' : List Kind} {done fields : List Field}
    {specs : List FieldSpec} {statics : Nat} (h : StaticsNumbered done)
    (hstatics : statics = (done.filter Field.isStatic).length)
    (hlay : layFields layout statics done specs = .ok (fields, layout')) :
    StaticsNumbered fields := by
  induction specs generalizing layout statics done with
  | nil =>
    cases hlay
    exact h
  | cons spec specs ih =>
    obtain ⟨type, ⟨-, hrest⟩ | ⟨-, hrest⟩⟩ := layFields_cons_eq_ok hlay
    · refine ih (h.concat fun _ => hstatics) ?_ hrest
      simp [hstatics]
    · refine ih (h.concat fun hf => by cases hf) ?_ hrest
      simp [hstatics]

theorem Reachable.staticsNumbered (h : r.Reachable) (c : ClassId) :
    StaticsNumbered (r.get c).fields := by
  refine h.induction (P := fun r => ∀ c, StaticsNumbered (r.get c).fields)
    (fun _ => staticsNumbered_nil) ?_ c
  intro r k ih hk c
  rcases get_push_cases r k c with ⟨-, hget⟩ | ⟨-, hget⟩ | hget
  · rw [hget]
    exact ih c
  · rw [hget]
    cases hk with
    | defined _ _ _ _ hfields => exact staticsNumbered_of_layFields staticsNumbered_nil rfl hfields
    | array => exact staticsNumbered_nil
  · rw [hget]
    exact staticsNumbered_nil

/-- The reference names a static field that its class declares. -/
structure StaticField (r : Registry) (f : FieldRef) : Prop where
  declared : f.index < (r.get f.owner).fields.length
  isStatic : (r.field f).isStatic = true

/-- The slot of a static field is of its kind. -/
theorem Reachable.staticKinds_of_staticField (h : r.Reachable) (hf : r.StaticField f) :
    (r.get f.owner).staticKinds[(r.field f).slot]? = some (r.field f).kind := by
  have hmem := List.mem_of_getElem? (getElem?_fields hf.declared)
  rw [Class.staticKinds, List.getElem?_map, h.staticsNumbered f.owner _ hmem hf.isStatic,
    Option.map_some]

/-! ## The slot of a message -/

/-- In the basic classes, the message of a throwable is a reference, and all that is looked through
for it is basic. -/
theorem messageSlot_basic : ∀ k ∈ FaultKind.all, ∃ c ∈ basic.find? k.className,
    c.index < basic.size ∧ (∀ d ∈ (basic.get c).fieldOrder, d.index < basic.size) ∧
    ∀ f ∈ basic.findField? c World.messageField World.messageDescriptor,
      f.owner.index < basic.size ∧ (basic.get c).layout[(basic.field f).slot]? = some .object := by
  decide +kernel

/-- The throwable of a fault keeps its message in a slot for references. -/
theorem Reachable.messageSlot (h : r.Reachable) (k : FaultKind) :
    ∃ c, r.find? k.className = some c ∧ c.index < r.size ∧
      ∀ f, r.findField? c World.messageField World.messageDescriptor = some f →
        (r.get c).layout[(r.field f).slot]? = some .object := by
  obtain ⟨c, hfind, hc, horder, hslot⟩ := messageSlot_basic k k.mem_all
  have grows := h.basic_extends
  refine ⟨c, grows.find?_eq hfind, Nat.lt_of_lt_of_le hc grows.size_le, fun f hf => ?_⟩
  rw [grows.findField?_eq hc horder] at hf
  obtain ⟨howner, hkind⟩ := hslot f hf
  rw [field, grows.get_eq _ howner, grows.get_eq c hc]
  exact hkind

end Registry

/-! ## Places -/

/-- The values in the slots of an object. -/
def Object.slots (o : Object) : List Value :=
  match o.body with
  | .slots values => values
  | _ => []

/-- A slot of an object or of a class. -/
inductive Place where
  | inObject (o : ObjectRef) (slot : Nat)
  | inClass (c : ClassId) (slot : Nat)
  deriving DecidableEq

namespace World

variable {w w' : World H} {o : ObjectRef} {c : ClassId} {f : FieldRef} {p : Place} {v : Value}

/-- The value in a slot, if there is such a slot. -/
def valueAt (w : World H) : Place → Option Value
  | .inObject o slot => (w.object o).slots[slot]?
  | .inClass c slot => (w.classState c).statics[slot]?

/-- The kind of the values in a slot. -/
def kindAt (w : World H) : Place → Option Kind
  | .inObject o slot => (w.registry.get (w.classOf o)).layout[slot]?
  | .inClass c slot => (w.registry.get c).staticKinds[slot]?

/-- The slots of every instance and of every class hold values of the kinds that the class gives
them. -/
structure Kinded (w : World H) : Prop where
  instances : ∀ o, o.index < w.heap.size → ∀ values, (w.object o).body = .slots values →
    values.map Value.kind = (w.registry.get (w.classOf o)).layout
  statics : ∀ c, c.index < w.registry.size →
    (w.classState c).statics.map Value.kind = (w.registry.get c).staticKinds

theorem lt_size_of_body_ne (h : (w.object o).body ≠ .slots []) : o.index < w.heap.size := by
  refine Nat.lt_of_not_le fun hle => h ?_
  rw [object, Heap.get, Array.getElem?_eq_none hle]
  rfl

/-- What should be in a slot is missing only from objects that have no slots at all. -/
theorem Kinded.slots_eq_nil (k : w.Kinded) {kind : Kind} (hkind : w.kindAt p = some kind)
    (hv : w.valueAt p = none) : ∃ o slot, p = .inObject o slot ∧ (w.object o).slots = [] := by
  have hshort : ∀ {values : List Value} {kinds : List Kind} {slot : Nat},
      values.map Value.kind = kinds → kinds[slot]? = some kind → values[slot]? ≠ none := by
    rintro values kinds slot rfl hkind hnone
    rw [List.getElem?_map, hnone] at hkind
    cases hkind
  cases p with
  | inObject o slot =>
    refine ⟨o, slot, rfl, ?_⟩
    change (w.object o).slots[slot]? = none at hv
    rw [Object.slots] at hv ⊢
    cases hbody : (w.object o).body with
    | slots values =>
      rw [hbody] at hv
      by_cases hempty : values = []
      · exact hempty
      · have ho : o.index < w.heap.size := lt_size_of_body_ne fun hslots => hempty (by
          cases hbody.symm.trans hslots
          rfl)
        exact absurd hv (hshort (k.instances o ho values hbody) hkind)
    | _ => rfl
  | inClass c slot =>
    have hc : c.index < w.registry.size := by
      refine Nat.lt_of_not_le fun hle => ?_
      rw [kindAt, Registry.get_of_le hle] at hkind
      cases hkind
    exact absurd hv (hshort (k.statics c hc) hkind)

theorem Kinded.of_eq (k : w.Kinded) (hheap : w'.heap = w.heap)
    (hregistry : w'.registry = w.registry) (hstates : w'.states = w.states) : w'.Kinded := by
  have hobject : w'.object = w.object := by
    funext o
    rw [object, hheap]
    rfl
  have hclass : w'.classState = w.classState := by
    funext c
    rw [classState, hstates]
    rfl
  constructor
  · intro o ho values hbody
    rw [hheap] at ho
    rw [hobject] at hbody
    rw [hregistry, classOf, hobject]
    exact k.instances o ho values hbody
  · rw [hregistry, hclass]
    exact k.statics

/-! ### New objects -/

/-- An object whose slots are of their kinds may come. -/
theorem Kinded.newObject (k : w.Kinded) {body : ObjectBody}
    (hbody : ∀ values, body = .slots values →
      values.map Value.kind = (w.registry.get c).layout) : (w.newObject c body).2.Kinded where
  statics := k.statics
  instances o ho values hvalues := by
    change (((w.heap.push ⟨c, body, .free⟩).2.get o).body) = _ at hvalues
    show _ = (w.registry.get ((w.heap.push ⟨c, body, .free⟩).2.get o).classId).layout
    have hsize : (w.newObject c body).2.heap.size = w.heap.size + 1 := Heap.size_push _ _
    by_cases hlt : o.index < w.heap.size
    · rw [Heap.get_push_of_lt hlt] at hvalues ⊢
      exact k.instances o hlt values hvalues
    · obtain rfl : o = ⟨w.heap.size⟩ := congrArg ObjectRef.mk (show o.index = w.heap.size by omega)
      have hself : (w.heap.push ⟨c, body, .free⟩).2.get ⟨w.heap.size⟩ = ⟨c, body, .free⟩ :=
        Heap.get_push_self _ _
      rw [hself] at hvalues ⊢
      exact hbody values hvalues

theorem Kinded.newInstance (k : w.Kinded) (c : ClassId) : (w.newInstance c).2.Kinded := by
  refine k.newObject fun values hvalues => ?_
  cases hvalues
  rw [List.map_map]
  exact List.map_id'' (fun kind => Value.kind_default kind) _

theorem Kinded.newString (k : w.Kinded) (units : List Text.Unit16) :
    (w.newString units).2.Kinded := k.newObject nofun

/-! ### Writes -/

/-- Where a field of an instance is written, the object has slots. -/
theorem setField?_eq_some_iff :
    w.setField? o f v = some w' ↔ ∃ values, (w.object o).body = .slots values ∧
      (w.registry.field f).isStatic = false ∧ (w.registry.field f).slot < values.length ∧
      w.setObject o { w.object o with
        body := .slots (values.set (w.registry.field f).slot v) } = w' := by
  rw [setField?, Object.setField?, Option.map_eq_some_iff]
  cases hbody : (w.object o).body with
  | slots values =>
    dsimp only
    constructor
    · rintro ⟨object, hobject, hset⟩
      split at hobject
      case isTrue h =>
        cases hobject
        exact ⟨values, rfl, h.1, h.2, hset⟩
      case isFalse => cases hobject
    · rintro ⟨_, hvalues, hinstance, hslot, hset⟩
      cases hvalues
      exact ⟨_, if_pos ⟨hinstance, hslot⟩, hset⟩
  | _ => simp

theorem lt_size_of_setField? (h : w.setField? o f v = some w') : o.index < w.heap.size := by
  obtain ⟨values, hbody, -, hslot, -⟩ := setField?_eq_some_iff.1 h
  refine lt_size_of_body_ne fun hempty => ?_
  cases hbody.symm.trans hempty
  exact absurd hslot (Nat.not_lt_zero _)

/-- A list of kinds is as it was after one of them is put where it was. -/
theorem map_kind_set {values : List Value} {kinds : List Kind} {slot : Nat}
    (h : values.map Value.kind = kinds) (hkind : kinds[slot]? = some v.kind) :
    (values.set slot v).map Value.kind = kinds := by
  obtain ⟨hslot, hkind⟩ := List.getElem?_eq_some_iff.1 hkind
  rw [List.map_set, h, ← hkind, List.set_getElem_self]

/-- A slot may be written with a value of its kind. -/
theorem Kinded.setField (k : w.Kinded) (h : w.setField? o f v = some w')
    (hkind : w.kindAt (.inObject o (w.registry.field f).slot) = some v.kind) : w'.Kinded := by
  obtain ⟨values, hbody, -, hslot, rfl⟩ := setField?_eq_some_iff.1 h
  refine ⟨fun o' ho' values' hbody' => ?_, k.statics⟩
  have hlt : o'.index < w.heap.size := Nat.lt_of_lt_of_eq ho' (Heap.size_set ..)
  show _ = (w.registry.get ((w.setObject o _).object o').classId).layout
  by_cases ho : o = o'
  · subst ho
    rw [object_setObject_self hlt] at hbody' ⊢
    cases hbody'
    exact map_kind_set (k.instances o hlt values hbody) hkind
  · rw [object_setObject_of_ne ho] at hbody' ⊢
    exact k.instances o' hlt values' hbody'

theorem setStatic?_eq_some_iff :
    w.setStatic? c f v = some w' ↔ (f.owner = c ∧ (w.registry.field f).isStatic = true ∧
      (w.registry.field f).slot < (w.classState c).statics.length) ∧
      w.setClassState c { w.classState c with
        statics := (w.classState c).statics.set (w.registry.field f).slot v } = w' := by
  simp only [setStatic?]
  split
  case isTrue h => rw [Option.some_inj, and_iff_right h]
  case isFalse h =>
    refine ⟨fun hset => ?_, fun hset => absurd hset.1 h⟩
    cases hset

/-- A class that has slots has a state of its own. -/
theorem lt_size_of_statics {slot : Nat} (h : slot < (w.classState c).statics.length) :
    c.index < w.states.size := by
  refine Nat.lt_of_not_le fun hle => ?_
  rw [classState, Array.getElem?_eq_none hle] at h
  exact absurd h (Nat.not_lt_zero _)

/-- The slot of a static field is one of its class. -/
theorem Kinded.setStatic (k : w.Kinded) (h : w.setStatic? c f v = some w')
    (hkind : w.kindAt (.inClass c (w.registry.field f).slot) = some v.kind) : w'.Kinded := by
  obtain ⟨⟨-, -, hslot⟩, rfl⟩ := setStatic?_eq_some_iff.1 h
  refine ⟨k.instances, fun d hd => ?_⟩
  rw [classState_setClassState]
  split
  case isTrue hc =>
    obtain ⟨rfl, -⟩ := hc
    exact map_kind_set (k.statics c hd) hkind
  case isFalse => exact k.statics d hd

/-! ### Throwables -/

/-- Making the throwable of a fault keeps slots to their kinds. -/
theorem Kinded.materialize (k : w.Kinded) (h : w.registry.Reachable) (fault : GuestFault) :
    (w.materialize fault).2.Kinded := by
  obtain ⟨c, hfind, hc, hslot⟩ := h.messageSlot fault.kind
  have hclass : (w.registry.find? fault.kind.className).getD CoreClass.throwable.id = c := by
    rw [hfind, Option.getD_some]
  let w₁ := ((w.newInstance c).2.newString (Text.units fault.message)).2
  have hmade : w.materialize fault = (⟨w.heap.size⟩, w₁.setMessage ⟨w.heap.size⟩
      (.ofObject ⟨(w.newInstance c).2.heap.size⟩)) := by
    rw [World.materialize, hclass]
    rfl
  have k₁ : w₁.Kinded := (k.newInstance c).newString _
  rw [hmade]
  show (w₁.setMessage _ _).Kinded
  rw [setMessage]
  cases hset : (w₁.registry.findField? (w₁.classOf ⟨w.heap.size⟩) messageField
      messageDescriptor).bind fun f => w₁.setField? ⟨w.heap.size⟩ f
        (.ofObject ⟨(w.newInstance c).2.heap.size⟩) with
  | none => exact k₁
  | some w₂ =>
    obtain ⟨f, hf, hset⟩ := Option.bind_eq_some_iff.1 hset
    have hclassOf : w₁.classOf ⟨w.heap.size⟩ = c := by
      have hlt : w.heap.size < (w.newInstance c).2.heap.size :=
        Nat.lt_of_lt_of_eq (Nat.lt_succ_self _) (Heap.size_push _ _).symm
      have hobject : w₁.object ⟨w.heap.size⟩ = (w.newInstance c).2.object ⟨w.heap.size⟩ :=
        Heap.get_push_of_lt hlt
      rw [classOf, hobject]
      exact congrArg Object.classId (Heap.get_push_self w.heap _)
    rw [hclassOf] at hf
    refine k₁.setField hset ?_
    show (w.registry.get (w₁.classOf _)).layout[_]? = _
    rw [hclassOf]
    exact hslot f hf

theorem Kinded.raised (k : w.Kinded) (h : w.registry.Reachable) (fault : GuestFault) :
    (w.raised fault).Kinded := (k.materialize h fault).of_eq rfl rfl rfl

/-! ### Definitions -/

/-- Every class has a state of its own, and every object a class. -/
structure Furnished (w : World H) : Prop extends Kinded w where
  sized : w.states.size = w.registry.size
  known : ∀ o, o.index < w.heap.size → (w.classOf o).index < w.registry.size

/-- A class starts with its static fields at their defaults. -/
theorem Furnished.add (h : w.Furnished) {k : Class} {s : ClassState}
    (hs : s.statics.map Value.kind = k.staticKinds) : (w.add k s).Furnished where
  sized := sized_add h.sized
  known o ho := by
    rw [size_registry_add]
    exact Nat.lt_succ_of_lt (h.known o ho)
  instances o ho values hbody := by
    show _ = ((w.registry.push k).2.get (w.classOf o)).layout
    rw [Registry.get_push_of_lt (h.known o ho)]
    exact h.instances o ho values hbody
  statics c hc := by
    show _ = ((w.registry.push k).2.get c).staticKinds
    rw [classState_add h.sized]
    split
    case isTrue hnew =>
      subst hnew
      rw [Registry.get_push_self]
      exact hs
    case isFalse hold =>
      have hlt : c.index < w.registry.size := by
        rw [size_registry_add] at hc
        have hne : c.index ≠ w.registry.size := fun he => hold (congrArg ClassId.mk he)
        omega
      rw [Registry.get_push_of_lt hlt]
      exact h.statics c hlt

theorem Furnished.defineOrKeep (h : w.Furnished) (spec : ClassSpec) :
    (w.defineOrKeep spec).Furnished := by
  unfold World.defineOrKeep World.define
  cases hdefine : w.registry.define spec with
  | error e => exact h
  | ok pair =>
    obtain ⟨c, r⟩ := pair
    obtain ⟨k, hpush, -⟩ := Registry.push_of_define hdefine
    obtain ⟨rfl, rfl⟩ := Prod.mk.inj hpush
    have hself : (w.registry.push k).2.get ⟨w.registry.size⟩ = k := Registry.get_push_self
    refine h.add (k := k) ?_
    show ((((w.registry.push k).2.get ⟨w.registry.size⟩).staticKinds.map Value.default).map
      Value.kind) = k.staticKinds
    rw [hself, List.map_map]
    exact List.map_id'' (fun kind => Value.kind_default kind) _

/-- A run starts with nothing but slots of their kinds. -/
theorem furnished_start (maxCallDepth : Nat) (memory : HostMemory) (host : H) :
    (start maxCallDepth memory host).Furnished := by
  have hbare : (bare maxCallDepth memory host).Furnished := by
    refine ⟨⟨fun o ho => absurd ho (Nat.not_lt_zero _), fun c hc => absurd hc (Nat.not_lt_zero _)⟩,
      rfl, fun o ho => absurd ho (Nat.not_lt_zero _)⟩
  suffices ∀ (specs : List ClassSpec) (w : World H), w.Furnished →
      (specs.foldl World.defineOrKeep w).Furnished from this firstClasses _ hbare
  intro specs
  induction specs with
  | nil => exact fun _ h => h
  | cons spec specs ih => exact fun w h => ih _ (h.defineOrKeep spec)

end World

end GuestBoundary
