import GuestBoundary.Proofs.Globals.Table
import GuestBoundary.Proofs.Heap.Slots
import GuestBoundary.Proofs.Interface.Failures
import GuestBoundary.Proofs.Native.Marshalling

/-!
# What fields hold

A write through the interface either raises, and then nothing that a field holds has changed, or it
puts the converted value into the slot of the field and changes nothing else (`setField_cases`).  A
read as the field's own kind answers what is in the slot (`getField_eq`, `returned_stands`).  Fields
of instances and static fields differ in how their slot is found and are alike otherwise, so both
are said of a place (`World.Reaches`).
-/

namespace GuestBoundary

variable {H ε : Type}

/-! ## Conversions and handles -/

/-- A value of the wanted kind stays as it is. -/
theorem ConversionMode.convert_of_kind {mode : ConversionMode} {v : Value} {k : Kind}
    (hk : v.kind = k) (nulls : NullPolicy) : mode.convert v k nulls = .ok v := by
  cases k with
  | primitive p => exact if_pos hk
  | object =>
    cases v <;> cases hk
    rfl
  | void =>
    cases v <;> cases hk
    rfl

/-- A handle that stands for an object goes on standing for it, unless it is a weak one and the
object is gone. -/
theorem Globals.resolve_of_resolve {α : Type} {t : Globals α} {h : Handle} {o : α}
    {alive alive' : α → Bool} (ho : t.resolve alive h = some o)
    (hweak : h.tag = .weakGlobal → (t.resolve alive' h).isSome = true) :
    t.resolve alive' h = some o := by
  unfold resolve at ho hweak ⊢
  cases hoccupant : t.occupant? h with
  | none =>
    rw [hoccupant] at ho
    cases ho
  | some x =>
    rw [hoccupant] at ho hweak
    cases x with
    | weak o' =>
      have hlive : (if alive' o' = true then some o' else none).isSome = true :=
        hweak (occupant?_eq_some_iff.1 hoccupant).2.2.1.symm
      rw [Option.isSome_ite] at hlive
      exact (if_pos hlive).trans (Option.ite_none_right_eq_some.1 ho).2
    | _ => exact ho

namespace World

variable {w w' : World H} {f : FieldRef} {p : Place} {u v : Value} {o : ObjectRef} {h : Handle}
  {mode : Interface.FieldMode}

theorem resolve_of_resolve (hattachment : w'.attachment = w.attachment)
    (hbridge : w'.bridge = w.bridge) (ho : w.resolve h = some o)
    (hweak : h.tag = .weakGlobal → (w'.resolve h).isSome = true) : w'.resolve h = some o := by
  unfold resolve at ho hweak ⊢
  rw [hattachment, hbridge] at hweak ⊢
  cases htag : h.tag with
  | invalid | «local» =>
    rw [htag] at ho
    exact ho
  | «global» | weakGlobal =>
    rw [htag] at ho hweak
    obtain ⟨b, hb, ho⟩ := Option.bind_eq_some_iff.1 ho
    rw [hb] at hweak
    refine Option.bind_eq_some_iff.2 ⟨b, hb, Globals.resolve_of_resolve ho fun h => ?_⟩
    exact hweak (htag.symm.trans h)

/-! ## Where fields are -/

/-- The handle leads to the slot of the field: the field is one of the chain of the object's class,
or it is static and its class is initialized. -/
inductive Reaches (w : World H) (f : FieldRef) : Interface.FieldMode → Handle → Place → Prop where
  | inObject {h : Handle} {o : ObjectRef} (ho : w.resolve h = some o)
    (hf : w.registry.InstanceField f) (chain : f.owner ∈ w.registry.chain (w.classOf o)) :
    Reaches w f .perObject h (.inObject o (w.registry.field f).slot)
  | inClass {h : Handle} (hf : w.registry.StaticField f)
    (done : (w.classState f.owner).init = .done) :
    Reaches w f .static h (.inClass f.owner (w.registry.field f).slot)

/-- A read through the handle gets to the slot: a static field is read through a class. -/
structure Reads (w : World H) (f : FieldRef) (mode : Interface.FieldMode) (h : Handle)
    (p : Place) : Prop where
  reaches : w.Reaches f mode h p
  named : mode = .static → (w.namedClass? h).isSome = true

/-- The slot is one of the field's kind. -/
theorem Reaches.kindAt (hp : w.Reaches f mode h p) (reachable : w.registry.Reachable) :
    w.kindAt p = some (w.registry.field f).kind := by
  cases hp with
  | inObject _ hf chain =>
    exact Registry.layout_of_mem_chain reachable.wellFormed.ranked reachable.fieldsSlotted hf chain
  | inClass hf _ => exact reachable.staticKinds_of_staticField hf

/-- What native code passes for a value of a kind. -/
inductive Supplies (w : World H) : Kind → Interface.Argument → Value → Prop where
  | handle (g : Handle) : Supplies w .object (.handle g) (.reference (w.resolve g))
  | primitive {v : Value} {type : Primitive} (hv : v.kind = type) :
    Supplies w type (.primitive v) v

/-! ## What a write comes to -/

/-- Something was raised, and all that fields held they still hold. -/
structure Raised (w w' : World H) : Prop where
  untouched : w.Untouched w'
  /-- The throwable is new. -/
  pending : ∃ t, w'.pending = some t ∧ w.heap.size ≤ t.index
  fields : ∀ q u, w.valueAt q = some u → w'.valueAt q = some u

/-- The value is in the slot, and everything else is as it was. -/
structure Stored (w : World H) (p : Place) (v : Value) (w' : World H) : Prop where
  stored : w'.valueAt p = some v
  others : ∀ q, q ≠ p → w'.valueAt q = w.valueAt q
  /-- Strings, arrays and whatever else has no slots. -/
  objects : ∀ o, (w.object o).slots = [] → w'.object o = w.object o
  registry : w'.registry = w.registry
  classOf : ∀ o, w'.classOf o = w.classOf o
  init : ∀ c, (w'.classState c).init = (w.classState c).init
  attachment : w'.attachment = w.attachment
  bridge : w'.bridge = w.bridge

/-- Why a write is refused: the value cannot be converted, the object has no slots, or the handle
stands for no class. -/
inductive Refused (w : World H) (mode : Interface.FieldMode) (h : Handle) (p : Place)
    (converted : Except ConversionError Value) : Prop where
  | conversion {e : ConversionError} (he : converted = .error e) : Refused w mode h p converted
  | noSlots {o : ObjectRef} {slot : Nat} (hp : p = .inObject o slot)
    (ho : (w.object o).slots = []) : Refused w mode h p converted
  | noClass (hmode : mode = .static) (hh : w.namedClass? h = none) : Refused w mode h p converted

/-- Nothing else refuses a write. -/
theorem not_refused {converted : Except ConversionError Value} (hc : converted = .ok u)
    (hp : w.valueAt p = some v) (hh : mode = .static → (w.namedClass? h).isSome = true) :
    ¬ w.Refused mode h p converted := by
  intro hrefused
  cases hrefused with
  | conversion he => cases hc.symm.trans he
  | noSlots hplace ho =>
    rw [hplace, valueAt, ho] at hp
    cases hp
  | noClass hmode hnone =>
    have := hh hmode
    rw [hnone] at this
    cases this

theorem lt_size_of_slots {slot : Nat} (h : (w.object o).slots[slot]? = some u) :
    o.index < w.heap.size := by
  refine lt_size_of_body_ne fun hbody => ?_
  rw [Object.slots, hbody] at h
  cases h

theorem Untouched.valueAt (h : w.Untouched w') {q : Place} (hq : w.valueAt q = some u) :
    w'.valueAt q = some u := by
  cases q with
  | inObject o slot =>
    change (w'.object o).slots[slot]? = some u
    rw [h.object (lt_size_of_slots hq)]
    exact hq
  | inClass c slot =>
    change (w'.classState c).statics[slot]? = some u
    rw [h.statics]
    exact hq

theorem raised_raised (ha : w.attachment.isSome = true) (fault : GuestFault) :
    Raised w (w.raised fault) where
  untouched := untouched_raised w fault
  pending := ⟨_, pending_raised ha fault, Nat.le_refl _⟩
  fields _ _ := (untouched_raised w fault).valueAt

/-- A field of an instance is written in its slot. -/
theorem stored_of_setField (hset : w.setField? o f v = some w') :
    w.Stored (.inObject o (w.registry.field f).slot) v w' := by
  have hself := object_setObject_self (lt_size_of_setField? hset)
  have hother : ∀ o', o ≠ o' → ∀ object, (w.setObject o object).object o' = w.object o' :=
    fun o' => object_setObject_of_ne
  obtain ⟨values, hbody, -, hslot, rfl⟩ := setField?_eq_some_iff.1 hset
  constructor
  case stored =>
    show ((w.setObject o _).object o).slots[_]? = _
    rw [hself]
    exact List.getElem?_set_self hslot
  case others =>
    intro q hq
    cases q with
    | inClass c slot => rfl
    | inObject o' slot =>
      show ((w.setObject o _).object o').slots[_]? = (w.object o').slots[_]?
      by_cases ho : o = o'
      · subst ho
        have hne : (w.registry.field f).slot ≠ slot := fun he => hq (by rw [he])
        rw [hself, Object.slots, Object.slots, hbody]
        exact List.getElem?_set_ne hne
      · rw [hother o' ho]
  case objects =>
    intro o' ho'
    refine hother o' (fun ho => ?_) _
    subst ho
    rw [Object.slots, hbody] at ho'
    subst ho'
    exact absurd hslot (Nat.not_lt_zero _)
  case classOf =>
    intro o'
    show ((w.setObject o _).object o').classId = (w.object o').classId
    by_cases ho : o = o'
    · subst ho
      rw [hself]
    · rw [hother o' ho]
  all_goals intros; rfl

/-- A static field is written in its slot. -/
theorem stored_of_setStatic (hset : w.setStatic? f.owner f v = some w') :
    w.Stored (.inClass f.owner (w.registry.field f).slot) v w' := by
  obtain ⟨⟨-, -, hslot⟩, rfl⟩ := setStatic?_eq_some_iff.1 hset
  have hlt := lt_size_of_statics hslot
  constructor
  case stored =>
    show ((w.setClassState f.owner _).classState f.owner).statics[_]? = _
    rw [classState_setClassState, if_pos ⟨rfl, hlt⟩]
    exact List.getElem?_set_self hslot
  case others =>
    intro q hq
    cases q with
    | inObject o slot => rfl
    | inClass c slot =>
      show ((w.setClassState f.owner _).classState c).statics[_]? = (w.classState c).statics[_]?
      rw [classState_setClassState]
      split
      case isTrue hc =>
        obtain ⟨rfl, -⟩ := hc
        exact List.getElem?_set_ne fun he => hq (by rw [he])
      case isFalse => rfl
  case init =>
    intro c
    rw [classState_setClassState]
    split
    case isTrue hc => rw [hc.1]
    case isFalse => rfl
  all_goals intros; rfl

/-- Classes are not written to by way of the objects that stand for them. -/
theorem Stored.mirrored?_eq (hs : w.Stored p v w') {c : ClassId}
    (hc : (w.object o).mirrored? = some c) : (w'.object o).mirrored? = some c := by
  rw [hs.objects o ?_]
  · exact hc
  · rw [Object.mirrored?] at hc
    rw [Object.slots]
    cases hbody : (w.object o).body with
    | slots =>
      rw [hbody] at hc
      cases hc
    | _ => rfl

/-- The field can be read through the handle through which it was written, unless that is a weak one
and what it stood for is gone. -/
theorem Stored.reads (hs : w.Stored p v w') (hp : w.Reads f mode h p)
    (hweak : h.tag = .weakGlobal → (w'.resolve h).isSome = true) : w'.Reads f mode h p := by
  obtain ⟨hreaches, hnamed⟩ := hp
  refine ⟨?_, fun hmode => ?_⟩
  · cases hreaches with
    | inObject ho hf chain =>
      rw [← hs.registry] at hf chain ⊢
      rw [← hs.classOf] at chain
      exact .inObject (resolve_of_resolve hs.attachment hs.bridge ho hweak) hf chain
    | inClass hf done =>
      rw [← hs.registry] at hf ⊢
      exact .inClass hf ((hs.init _).trans done)
  · obtain ⟨c, hc⟩ := Option.isSome_iff_exists.1 (hnamed hmode)
    obtain ⟨o, ho, hc⟩ := Option.bind_eq_some_iff.1 hc
    rw [namedClass?, resolve_of_resolve hs.attachment hs.bridge ho hweak, Option.bind_some,
      hs.mirrored?_eq hc]
    rfl

/-! ## What a read answers -/

/-- There is room for a local reference. -/
def HasVacancy (w : World H) : Prop :=
  ∃ a, w.attachment = some a ∧ a.locals.WellFormed ∧ a.locals.vacancy?.isSome = true

/-- What native code is answered for a value: a local reference to the object, or the value. -/
inductive StandsFor (w : World H) : Value → Interface.Answer → Prop where
  | null : StandsFor w (.reference none) (.plain (.handle .null))
  | object {o : ObjectRef} {g : Handle} (hg : g.tag = .local) (ho : w.resolve g = some o) :
    StandsFor w (.reference (some o)) (.plain (.handle g))
  | primitive {v : Value} {type : Primitive} (hv : v.kind = type) :
    StandsFor w v (.plain (.primitive v))

theorem getField?_eq_valueAt (hf : w.registry.InstanceField f) :
    w.getField? o f = w.valueAt (.inObject o (w.registry.field f).slot) := by
  show (w.object o).getField? (w.registry.field f) = (w.object o).slots[_]?
  rw [Object.getField?, Object.slots]
  cases (w.object o).body with
  | slots values => exact if_neg (by rw [hf.isInstance]; decide)
  | _ => rfl

theorem getStatic?_eq_valueAt (hf : w.registry.StaticField f) :
    w.getStatic? f.owner f = w.valueAt (.inClass f.owner (w.registry.field f).slot) :=
  if_pos ⟨rfl, hf.isStatic⟩

/-- An instance field that cannot be written has no slot in the object. -/
theorem valueAt_of_setField?_eq_none (hf : w.registry.InstanceField f)
    (hset : w.setField? o f v = none) :
    w.valueAt (.inObject o (w.registry.field f).slot) = none := by
  show (w.object o).slots[_]? = none
  cases hbody : (w.object o).body with
  | slots values =>
    rw [Object.slots, hbody]
    refine List.getElem?_eq_none (Nat.le_of_not_lt fun hslot => ?_)
    rw [setField?_eq_some_iff.2 ⟨values, hbody, hf.isInstance, hslot, rfl⟩] at hset
    cases hset
  | _ =>
    rw [Object.slots, hbody]
    rfl

theorem valueAt_of_setStatic?_eq_none (hf : w.registry.StaticField f)
    (hset : w.setStatic? f.owner f v = none) :
    w.valueAt (.inClass f.owner (w.registry.field f).slot) = none := by
  refine List.getElem?_eq_none (Nat.le_of_not_lt fun hslot => ?_)
  rw [setStatic?_eq_some_iff.2 ⟨⟨rfl, hf.isStatic, hslot⟩, rfl⟩] at hset
  cases hset

end World

namespace Interface

open Entry

variable {w w' : World H} {a : Attachment} {b : Bridge} {f : FieldRef} {p : Place} {u v : Value}
  {h : Handle} {mode : FieldMode} {k : Kind} {arg : Argument} {id : UInt64}

/-! ## Writes -/

/-- The rest of a write, once the field is known. -/
def write (f : FieldRef) (value : Argument) (set? : World H → Value → Option (World H))
    (owner : World H → String) : Entry H Unit := do
  let v ← passed value
  let r ← Action.read World.registry
  let v ← stored (r.field f).kind v
  let w ← Action.world
  match set? w v with
  | some w => Action.update fun _ => w
  | none => missingField (owner w) f

theorem setInstanceField_eq (h : Handle) (id : UInt64) (value : Argument) :
    (setInstanceField h id value : Entry H Unit) = (do
      let o ← require h "object"
      let f ← instanceField o id
      write f value (fun w v => w.setField? o f v) fun w => w.dottedName o) := rfl

theorem setStaticField_eq (call : Invoker H) (h : Handle) (id : UInt64) (value : Argument) :
    setStaticField call h id value = (do
      let f ← staticField call h id
      write f value (fun w v => w.setStatic? f.owner f v) fun w =>
        w.registry.dottedName f.owner) := rfl

theorem registry_eq :
    (Action.read World.registry w : Outcome H EntryError Registry) = .ok w.registry w := rfl

theorem passed_eq (hv : w.Supplies k arg v) : passed arg w = .ok v w := by
  cases hv <;> rfl

/-- A value on its way to a slot is converted, and put there if there is such a slot. -/
theorem write_cases (hb : w.bridge = some b) (hv : w.Supplies k arg v)
    (set? : World H → Value → Option (World H)) (owner : World H → String)
    (kinded : w.Kinded) (hkind : w.kindAt p = some (w.registry.field f).kind)
    (hnone : ∀ u, set? w u = none → w.valueAt p = none)
    (hsome : ∀ u w', set? w u = some w' → w.Stored p u w') :
    (∃ e fault, write f arg set? owner w = .error e w ∧ e.surface = .fault fault ∧
      w.Refused mode h p (b.config.conversion.convert v (w.registry.field f).kind .reject)) ∨
    ∃ u w', write f arg set? owner w = .ok () w' ∧
      b.config.conversion.convert v (w.registry.field f).kind .reject = .ok u ∧
      w.Stored p u w' ∧ set? w u = some w' := by
  rw [write, Action.bind_ok (passed_eq hv), Action.bind_ok registry_eq]
  cases hconvert : b.config.conversion.convert v (w.registry.field f).kind .reject with
  | error c =>
    have hstored : stored (w.registry.field f).kind v w = .error (.conversion c) w := by
      rw [stored, Action.bind_ok (bridge_eq hb), hconvert]
      rfl
    exact .inl ⟨_, _, Action.bind_error hstored, rfl, .conversion rfl⟩
  | ok u =>
    have hstored : stored (w.registry.field f).kind v w = .ok u w := by
      rw [stored, Action.bind_ok (bridge_eq hb), hconvert]
      rfl
    rw [Action.bind_ok hstored, Action.bind_ok world_eq]
    cases hset : set? w u with
    | none =>
      obtain ⟨o, slot, hplace, ho⟩ := kinded.slots_eq_nil hkind (hnone u hset)
      exact .inl ⟨_, _, rfl, rfl, .noSlots hplace ho⟩
    | some w' => exact .inr ⟨u, w', rfl, rfl, hsome u w' hset, hset⟩

/-- The check of an instance field passes for the fields of the chain. -/
theorem instanceField_of_mem_chain {o : ObjectRef} (reachable : w.registry.Reachable)
    (hb : w.bridge = some b) (hid : b.fields.find id = .ok f) (hf : w.registry.InstanceField f)
    (chain : f.owner ∈ w.registry.chain (w.classOf o)) : instanceField o id w = .ok f w :=
  (Registry.instanceField_eq_ok_iff hb hid hf.declared).2
    ⟨hf, reachable.wellFormed.isSubclass_of_mem_chain chain⟩

/-- The check of a static field passes for a class that is initialized. -/
theorem staticField_of_done (call : Invoker H) {c : ClassId} (hb : w.bridge = some b)
    (hid : b.fields.find id = .ok f) (hf : w.registry.StaticField f)
    (done : (w.classState f.owner).init = .done) (hc : w.namedClass? h = some c) :
    staticField call h id w = .ok f w := by
  have hinit : Guest.initClass call f.owner w = .ok () w := by
    rw [Guest.initClass, Guest.initClassWithin_succ, done]
  have hclass : (discard (classOf h) : Entry H Unit) w = .ok () w :=
    Action.bind_ok (classOf_some hc)
  rw [staticField, Action.bind_ok hclass, Action.bind_ok (field_eq hb hid), Action.bind_ok registry_eq,
    if_pos hf.isStatic, Action.bind_ok (guest_ok hinit)]
  rfl

/-- A write through the interface is refused, or stores the converted value. -/
theorem setField_cases (call : Invoker H) (reachable : w.registry.Reachable) (kinded : w.Kinded)
    (hb : w.bridge = some b) (hid : b.fields.find id = .ok f) (hp : w.Reaches f mode h p)
    (hv : w.Supplies k arg v) :
    (∃ e fault, perform call (.setField mode k) [.handle h, .member id, arg] w = .error e w ∧
      e.surface = .fault fault ∧ w.Refused mode h p
        (b.config.conversion.convert v (w.registry.field f).kind .reject)) ∨
    ∃ u w', perform call (.setField mode k) [.handle h, .member id, arg] w =
        .ok (.plain .nothing) w' ∧
      b.config.conversion.convert v (w.registry.field f).kind .reject = .ok u ∧
      w.Stored p u w' ∧ (mode = .static → (w.namedClass? h).isSome = true) ∧ w'.Kinded := by
  have hkind := hp.kindAt reachable
  cases hp with
  | @inObject _ o ho hf chain =>
    have hbody := (setInstanceField_eq h id arg).symm ▸ (Action.bind_ok (require_some ho)).trans
      (Action.bind_ok (instanceField_of_mem_chain reachable hb hid hf chain))
    rcases write_cases hb hv (fun w v => w.setField? o f v) (fun w => w.dottedName o) kinded hkind
        (fun u => World.valueAt_of_setField?_eq_none hf) (fun u w' => World.stored_of_setField) with
      ⟨e, fault, hwrite, he, hrefused⟩ | ⟨u, w', hwrite, hconvert, hstored, hset⟩
    · exact .inl ⟨e, fault, Action.bind_error (hbody.trans hwrite), he, hrefused⟩
    · refine .inr ⟨u, w', Action.bind_ok (hbody.trans hwrite), hconvert, hstored, nofun,
        kinded.setField hset ?_⟩
      rw [hkind, ConversionMode.kind_of_convert hconvert]
  | inClass hf done =>
    cases hc : w.namedClass? h with
    | none =>
      obtain ⟨fault, hclass⟩ := classOf_none hc
      have hstatic : staticField call h id w = .error (.fault fault) w :=
        Action.bind_error (Action.bind_error hclass)
      refine .inl ⟨.fault fault, fault, Action.bind_error ?_, rfl, .noClass rfl hc⟩
      rw [setStaticField_eq]
      exact Action.bind_error hstatic
    | some c =>
      have hbody := (setStaticField_eq call h id arg).symm ▸
        Action.bind_ok (staticField_of_done call hb hid hf done hc)
      rcases write_cases hb hv (fun w v => w.setStatic? f.owner f v)
          (fun w => w.registry.dottedName f.owner) kinded hkind
          (fun u => World.valueAt_of_setStatic?_eq_none hf)
          (fun u w' => World.stored_of_setStatic) with
        ⟨e, fault, hwrite, he, hrefused⟩ | ⟨u, w', hwrite, hconvert, hstored, hset⟩
      · exact .inl ⟨e, fault, Action.bind_error (hbody.trans hwrite), he, hrefused⟩
      · refine .inr ⟨u, w', Action.bind_ok (hbody.trans hwrite), hconvert, hstored, fun _ => rfl,
          kinded.setStatic hset ?_⟩
        rw [hkind, ConversionMode.kind_of_convert hconvert]

/-! ## Reads -/

theorem answerReturned_congr {x y : Entry H Returned} (hxy : x w = y w) :
    answerReturned x w = answerReturned y w := by
  show Action.andThen _ _ w = Action.andThen _ _ w
  rw [Action.andThen, Action.andThen, hxy]

/-- A read through the interface answers what is in the slot. -/
theorem getField_eq (call : Invoker H) (reachable : w.registry.Reachable)
    (hb : w.bridge = some b) (hid : b.fields.find id = .ok f) (hp : w.Reads f mode h p)
    (hv : w.valueAt p = some v) (k : Kind) :
    perform call (.getField mode k) [.handle h, .member id] w =
      answerReturned (returned k v) w := by
  obtain ⟨hreaches, hnamed⟩ := hp
  cases hreaches with
  | @inObject _ o ho hf chain =>
    refine answerReturned_congr ?_
    rw [getInstanceField, Action.bind_ok (require_some ho),
      Action.bind_ok (instanceField_of_mem_chain reachable hb hid hf chain),
      Action.bind_ok world_eq, World.getField?_eq_valueAt hf, hv]
  | inClass hf done =>
    obtain ⟨c, hc⟩ := Option.isSome_iff_exists.1 (hnamed rfl)
    refine answerReturned_congr ?_
    rw [getStaticField, Action.bind_ok (staticField_of_done call hb hid hf done hc),
      Action.bind_ok world_eq, World.getStatic?_eq_valueAt hf, hv]

/-- A local reference is made where there is room, it leads to the object, and nothing but the table
of the references changes. -/
theorem newLocal_fills (ha : w.attachment = some a) (wf : a.locals.WellFormed)
    (hroom : a.locals.vacancy?.isSome = true) (o : ObjectRef) :
    ∃ g t, newLocal (some o) w = .ok g (Native.withLocals w a t) ∧ g.tag = .local ∧
      (Native.withLocals w a t).resolve g = some o := by
  obtain ⟨⟨i, free⟩, hvacancy⟩ := Option.isSome_iff_exists.1 hroom
  obtain ⟨-, hi, hlimit, -⟩ := wf.vacancy hvacancy
  have htag : (a.locals.handleAt i).tag = .local :=
    Locals.handleAt_tag (Nat.le_trans (Nat.le_of_lt hlimit) wf.limit_le)
  refine ⟨a.locals.handleAt i, a.locals.fill i free o, ?_, htag, ?_⟩
  · rw [newLocal, Native.onAttachment_eq ha]
    simp only [Locals.create_some, hvacancy,
      Locals.handleAt_fill_of_le (Nat.le_trans hi wf.size_le_generations)]
    rfl
  · exact (Native.resolve_withLocals htag).trans ((wf.resolve_fill hvacancy).2 (.inl ⟨rfl, rfl⟩))

theorem newLocal_of_vacancy (ha : w.attachment = some a) (wf : a.locals.WellFormed)
    (hroom : a.locals.vacancy?.isSome = true) (o : ObjectRef) :
    ∃ g w', newLocal (some o) w = .ok g w' ∧ g.tag = .local ∧ w'.resolve g = some o := by
  obtain ⟨g, t, hlocal, htag, ho⟩ := newLocal_fills ha wf hroom o
  exact ⟨g, _, hlocal, htag, ho⟩

/-- A value of the wanted kind is answered as it is. -/
theorem returned_stands (ha : w.attachment = some a) (wf : a.locals.WellFormed)
    (hb : w.bridge = some b) (hk : v.kind = k) (hvoid : k ≠ .void)
    (hroom : v.object? = none ∨ a.locals.vacancy?.isSome = true) :
    ∃ answer w', answerReturned (returned k v) w = .ok answer w' ∧ w'.StandsFor v answer := by
  have hconvert : ofConversion (b.config.conversion.convertResult v k) w = .ok v w := by
    rw [ConversionMode.convertResult, ConversionMode.convert_of_kind hk]
    rfl
  have hreturned : returned k v w = _ :=
    (Action.bind_ok (bridge_eq hb)).trans (Action.bind_ok hconvert)
  cases v with
  | reference o =>
    cases o with
    | none =>
      have hlocal : newLocal none w = .ok .null (w.setAttachment (some a)) :=
        Native.onAttachment_eq ha _
      exact ⟨_, _, Action.bind_ok (hreturned.trans (Action.bind_ok hlocal)), .null⟩
    | some o =>
      obtain ⟨g, w', hlocal, hg, ho⟩ := newLocal_of_vacancy ha wf (hroom.resolve_left nofun) o
      exact ⟨_, w', Action.bind_ok (hreturned.trans (Action.bind_ok hlocal)), .object hg ho⟩
  | void => exact absurd hk.symm hvoid
  | _ => exact ⟨_, w, Action.bind_ok hreturned, .primitive rfl⟩

/-! ## Writes and reads -/

/-- What was stored is answered, where there is room for a reference to it. -/
theorem reads_stored (call : Invoker H) (reachable : w.registry.Reachable)
    (ha : w.attachment = some a) (wf : a.locals.WellFormed) (hb : w.bridge = some b)
    (hid : b.fields.find id = .ok f) (hs : w.Stored p u w')
    (hu : u.kind = (w.registry.field f).kind) (hp : w'.Reads f mode h p)
    (hroom : u.object? = none ∨ a.locals.vacancy?.isSome = true) :
    ∃ answer w'', (callFunction call (ownEnv w') (.getField mode (w.registry.field f).kind)
        [.handle h, .member id] w' : Outcome H ε Answer) = .ok answer w'' ∧
      w''.StandsFor u answer := by
  have ha' : w'.attachment = some a := hs.attachment.trans ha
  have hb' : w'.bridge = some b := hs.bridge.trans hb
  obtain ⟨answer, w'', hreturned, hstands⟩ :=
    returned_stands ha' wf hb' hu (Registry.kind_ne_void _) hroom
  refine ⟨answer, w'', callFunction_done (by rw [ha']; rfl) ?_, hstands⟩
  rw [← hs.registry] at reachable hreturned ⊢
  exact (getField_eq call reachable hb' hid hp hs.stored _).trans hreturned

/-- A write through a function of any type raises, and then all fields hold what they held, or it
puts what the value is converted to into the slot of the field and nowhere else.  Either way the
slots still hold values of their kinds, and a read as the kind of the field answers what was put
there. -/
theorem fields_hold_what_is_written (call : Invoker H) (reachable : w.registry.Reachable)
    (kinded : w.Kinded) (ha : w.attachment = some a) (wf : a.locals.WellFormed)
    (hb : w.bridge = some b) (hid : b.fields.find id = .ok f) (hp : w.Reaches f mode h p)
    (hv : w.Supplies k arg v) :
    ∃ w', (callFunction call (ownEnv w) (.setField mode k) [.handle h, .member id, arg] w :
        Outcome H ε Answer) = .ok (.plain .nothing) w' ∧ w'.Kinded ∧
      ((w.Raised w' ∧ w.Refused mode h p
          (b.config.conversion.convert v (w.registry.field f).kind .reject)) ∨
        ∃ u, b.config.conversion.convert v (w.registry.field f).kind .reject = .ok u ∧
          w.Stored p u w' ∧
          ((h.tag = .weakGlobal → (w'.resolve h).isSome = true) → w'.Reads f mode h p) ∧
          ∀ g, w'.Reads f mode g p → u.object? = none ∨ a.locals.vacancy?.isSome = true →
            ∃ answer w'', (callFunction call (ownEnv w')
                (.getField mode (w.registry.field f).kind) [.handle g, .member id] w' :
                Outcome H ε Answer) = .ok answer w'' ∧ w''.StandsFor u answer) := by
  have hattached : w.attachment.isSome = true := by
    rw [ha]
    rfl
  rcases setField_cases call reachable kinded hb hid hp hv with
    ⟨e, fault, hbody, he, hrefused⟩ | ⟨u, w', hbody, hconvert, hstored, hnamed, hkinded⟩
  · exact ⟨w.raised fault, callFunction_fails hattached he hbody, kinded.raised reachable fault,
      .inl ⟨World.raised_raised hattached fault, hrefused⟩⟩
  · exact ⟨w', callFunction_done hattached hbody, hkinded, .inr ⟨u, hconvert, hstored,
      hstored.reads ⟨hp, hnamed⟩, fun g hg => reads_stored call reachable ha wf hb hid hstored
        (ConversionMode.kind_of_convert hconvert) hg⟩⟩

/-- A class with a number in each object and a reference of its own. -/
def tank : ClassSpec :=
  ⟨"Tank", .concrete, some "java/lang/Object", [],
    [⟨"level", "B", false⟩, ⟨"largest", "LTank;", true⟩], []⟩

/-- The two classes, where the second inherits from the first. -/
def tanks : World Unit :=
  ((World.start World.defaultCallDepth .growing ()).defineOrKeep tank).defineOrKeep
    ⟨"FuelTank", .concrete, some "Tank", [], [], []⟩

def level : FieldRef := ⟨⟨28⟩, 0⟩

def largest : FieldRef := ⟨⟨28⟩, 1⟩

/-- References to an object of the second class and to the first class. -/
def depotLocals : Locals ObjectRef :=
  (Locals.empty 4096).after [.create (some ⟨0⟩), .create (some ⟨1⟩)]

def fuelTank : Handle := depotLocals.handleAt 0

def tankClass : Handle := depotLocals.handleAt 1

def depotBridge : Bridge :=
  { Bridge.empty .default with fields := ((MemberTable.empty "field").push level).push largest }

/-- A thread with the references, on a bridge with numbers for the fields. -/
def depot : World Unit :=
  { (((tanks.newInstance ⟨29⟩).2.newObject CoreClass.classObject.id (.mirror ⟨28⟩)).2.setAttachment
      (some ⟨0, depotLocals, .empty⟩)) with
    linked := true, bridge := some depotBridge, bridgeHeld := true, attachments := 1 }

theorem depot_reachable : depot.registry.Reachable := by
  have hregistry : depot.registry = (Registry.basic.defineOrKeep tank).defineOrKeep
      ⟨"FuelTank", .concrete, some "Tank", [], [], []⟩ := by
    rw [← Registry.registry_start World.defaultCallDepth .growing (), ← Registry.registry_defineOrKeep,
      ← Registry.registry_defineOrKeep]
    rfl
  rw [hregistry]
  exact (Registry.Reachable.basic.defineOrKeep (by nofun)).defineOrKeep (by nofun)

theorem depot_kinded : depot.Kinded := by
  have furnished : tanks.Furnished :=
    ((World.furnished_start World.defaultCallDepth .growing ()).defineOrKeep tank).defineOrKeep _
  have made : ((tanks.newInstance ⟨29⟩).2.newObject CoreClass.classObject.id
      (.mirror ⟨28⟩)).2.Kinded := (furnished.toKinded.newInstance ⟨29⟩).newObject nofun
  exact made.of_eq rfl rfl rfl

theorem depot_fields :
    (level.index < (depot.registry.get level.owner).fields.length ∧
      (depot.registry.field level).isStatic = false ∧
      (depot.registry.field level).kind = .primitive .byte ∧
      (depot.registry.field level).slot = 0 ∧
      level.owner ∈ depot.registry.chain (depot.classOf ⟨0⟩) ∧
      depot.valueAt (.inObject ⟨0⟩ 0) = some (.byte 0)) ∧
    (largest.index < (depot.registry.get largest.owner).fields.length ∧
      (depot.registry.field largest).isStatic = true ∧
      (depot.registry.field largest).kind = .object ∧
      (depot.registry.field largest).slot = 0 ∧
      (depot.classState largest.owner).init = .done ∧
      depot.valueAt (.inClass ⟨28⟩ 0) = some (.reference none)) ∧
    depot.resolve fuelTank = some ⟨0⟩ ∧ (depot.namedClass? tankClass).isSome = true ∧
    fuelTank.tag = .local ∧ tankClass.tag = .local := by
  decide +kernel

/-- A long number is cut to the inherited number of an object, and a reference is put into the
static field. -/
theorem depot_holds_what_is_written :
    let call : Invoker Unit := fun _ _ _ => Action.halt .outOfFuel
    (∃ w' answer w'', (callFunction call (ownEnv depot) (.setField .perObject (.primitive .long))
        [.handle fuelTank, .member 1, .primitive (.long 511)] depot :
        Outcome Unit Empty Answer) = .ok (.plain .nothing) w' ∧
      w'.valueAt (.inObject ⟨0⟩ 0) = some (.byte (-1)) ∧
      (callFunction call (ownEnv w') (.getField .perObject (.primitive .byte))
        [.handle fuelTank, .member 1] w' : Outcome Unit Empty Answer) = .ok answer w'' ∧
      w''.StandsFor (.byte (-1)) answer) ∧
    ∃ w' answer w'', (callFunction call (ownEnv depot) (.setField .static .object)
        [.handle tankClass, .member 2, .handle fuelTank] depot :
        Outcome Unit Empty Answer) = .ok (.plain .nothing) w' ∧
      w'.valueAt (.inClass ⟨28⟩ 0) = some (.reference (some ⟨0⟩)) ∧
      (callFunction call (ownEnv w') (.getField .static .object)
        [.handle tankClass, .member 2] w' : Outcome Unit Empty Answer) = .ok answer w'' ∧
      w''.StandsFor (.reference (some ⟨0⟩)) answer := by
  intro call
  obtain ⟨⟨hlevel, hinstance, hbyte, hslot, hchain, hzero⟩,
    ⟨hlargest, hstatic, hobject, hslot', hdone, hnull⟩, ho, hclass, htag, htag'⟩ := depot_fields
  have wf : depotLocals.WellFormed := (Locals.wellFormed_empty 4096).after _
  have hroom : depotLocals.vacancy?.isSome = true := rfl
  have hlocal : ∀ {h : Handle} {w : World Unit}, h.tag = .local →
      h.tag = .weakGlobal → (w.resolve h).isSome = true := by
    intro h w hlocal hweak
    cases hlocal.symm.trans hweak
  constructor
  · have hid : depotBridge.fields.find 1 = .ok level := rfl
    have hreaches : depot.Reaches level .perObject fuelTank (.inObject ⟨0⟩ 0) := by
      have := World.Reaches.inObject ho ⟨hlevel, hinstance⟩ hchain
      rwa [hslot] at this
    have hcut : depotBridge.config.conversion.convert (.long 511) (depot.registry.field level).kind
        .reject = .ok (.byte (-1)) := by
      rw [hbyte]
      rfl
    have hv : depot.Supplies (.primitive .long) (.primitive (.long 511)) (.long 511) :=
      .primitive rfl
    obtain ⟨w', hwrite, -, ⟨-, hrefused⟩ | ⟨u, hconvert, hstored, hreads, hread⟩⟩ :=
      fields_hold_what_is_written (ε := Empty) call depot_reachable depot_kinded rfl wf rfl hid
        hreaches hv
    · exact absurd hrefused (World.not_refused hcut hzero nofun)
    · cases hcut.symm.trans hconvert
      rw [hbyte] at hread
      obtain ⟨answer, w'', hread, hstands⟩ := hread fuelTank (hreads (hlocal htag)) (.inl rfl)
      exact ⟨w', answer, w'', hwrite, hstored.stored, hread, hstands⟩
  · have hid : depotBridge.fields.find 2 = .ok largest := rfl
    have hreaches : depot.Reaches largest .static tankClass (.inClass ⟨28⟩ 0) := by
      have := World.Reaches.inClass (h := tankClass) ⟨hlargest, hstatic⟩ hdone
      rwa [hslot'] at this
    have hkept : depotBridge.config.conversion.convert (.reference (some ⟨0⟩))
        (depot.registry.field largest).kind .reject = .ok (.reference (some ⟨0⟩)) := by
      rw [hobject]
      rfl
    have hv := World.Supplies.handle (w := depot) fuelTank
    rw [ho] at hv
    obtain ⟨w', hwrite, -, ⟨-, hrefused⟩ | ⟨u, hconvert, hstored, hreads, hread⟩⟩ :=
      fields_hold_what_is_written (ε := Empty) call depot_reachable depot_kinded rfl wf rfl hid
        hreaches hv
    · exact absurd hrefused (World.not_refused hkept hnull fun _ => hclass)
    · cases hkept.symm.trans hconvert
      rw [hobject] at hread
      obtain ⟨answer, w'', hread, hstands⟩ := hread tankClass (hreads (hlocal htag')) (.inr hroom)
      exact ⟨w', answer, w'', hwrite, hstored.stored, hread, hstands⟩

end Interface

end GuestBoundary
