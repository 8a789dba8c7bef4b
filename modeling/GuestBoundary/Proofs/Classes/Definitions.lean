import GuestBoundary.Proofs.Classes.Refusals
import GuestBoundary.Proofs.Effects.Development
import GuestBoundary.Proofs.Guest.Readiness
import GuestBoundary.Proofs.Heap.Slots

/-!
# What a definition makes of fields

A class has a slot for each instance field that it or a class above it declares, in front those
that it inherits, and a slot of its own for each static field (`Registry.LaidOut`).  A definition
lays out the fields that were described, with the static ones at their defaults, or it is refused
for a reason and nothing changes (`World.Defines`).  A new object holds the defaults of exactly
these slots (`fields_have_slots`).
-/

namespace GuestBoundary

variable {H : Type}

namespace Registry

variable {r r' : Registry} {c : ClassId} {f g : FieldRef} {spec : ClassSpec}

/-! ## Slots of a class -/

/-- No class declares two fields of one name and one type. -/
theorem Reachable.nodup_fields (h : r.Reachable) (c : ClassId) :
    ((r.get c).fields.map Field.signature).Nodup := by
  refine h.induction (P := fun r => ∀ c, ((r.get c).fields.map Field.signature).Nodup)
    (fun _ => List.nodup_nil) ?_ c
  intro r k ih hk c
  rcases get_push_cases r k c with ⟨-, hget⟩ | ⟨-, hget⟩ | hget
  · rw [hget]
    exact ih c
  · rw [hget]
    cases hk with
    | @defined spec superclass _ _ layout _ _ _ _ _ _ hfields =>
      have hread := map_layFields (((superclass.map r.get).map Class.layout).getD []) 0 []
        spec.fields
      rw [hfields] at hread
      exact (readMembers_eq_ok hread.symm).2
    | array => exact List.nodup_nil
  · rw [hget]
    exact List.nodup_nil

/-- The fields of a class `c` and of the classes above it have slots. -/
structure LaidOut (r : Registry) (c : ClassId) : Prop where
  /-- A class starts with the slots of the classes that it extends. -/
  inherits : ∀ d ∈ r.chain c, (r.get d).layout <+: (r.get c).layout
  /-- A field has a slot of its kind among those of the class that declares it. -/
  kind : ∀ f, r.InstanceField f → f.owner ∈ r.chain c →
    (r.get f.owner).layout[(r.field f).slot]? = some (r.field f).kind
  distinct : ∀ f g, r.InstanceField f → r.InstanceField g → f.owner ∈ r.chain c →
    g.owner ∈ r.chain c → f ≠ g → (r.field f).slot ≠ (r.field g).slot
  /-- Every slot belongs to exactly one field. -/
  one : ∀ slot < (r.get c).layout.length,
    ∃! f, r.InstanceField f ∧ f.owner ∈ r.chain c ∧ (r.field f).slot = slot
  staticKind : ∀ f, r.StaticField f → f.owner = c →
    (r.get c).staticKinds[(r.field f).slot]? = some (r.field f).kind
  staticDistinct : ∀ f g, r.StaticField f → r.StaticField g → f.owner = c → g.owner = c →
    f ≠ g → (r.field f).slot ≠ (r.field g).slot

/-- Two static fields of a class in one slot are one field. -/
theorem Reachable.eq_of_static_slot_eq (h : r.Reachable) (hf : r.StaticField f)
    (hg : r.StaticField g) (howner : f.owner = g.owner)
    (hslot : (r.field f).slot = (r.field g).slot) : f = g := by
  obtain ⟨o, i⟩ := f
  obtain ⟨o', j⟩ := g
  obtain rfl : o = o' := howner
  have hi := getElem?_fields hf.declared
  have hj := getElem?_fields hg.declared
  -- static fields stand at the places of their slots, so the two are declared alike
  have hnumbered := h.staticsNumbered o
  have hsame : r.field ⟨o, i⟩ = r.field ⟨o, j⟩ := by
    have hplace := hnumbered _ (List.mem_of_getElem? hi) hf.isStatic
    rw [hslot, hnumbered _ (List.mem_of_getElem? hj) hg.isStatic] at hplace
    exact (Option.some.inj hplace).symm
  have hsignature : ((r.get o).fields.map Field.signature)[i]? =
      ((r.get o).fields.map Field.signature)[j]? := by
    rw [List.getElem?_map, List.getElem?_map, hi, hj]
    exact congrArg (some ∘ Field.signature) hsame
  have hlt : i < ((r.get o).fields.map Field.signature).length := by
    rw [List.length_map]
    exact hf.declared
  rw [(List.getElem?_inj hlt (h.nodup_fields o)).1 hsignature]

/-- The fields of every class have slots. -/
theorem Reachable.laidOut (h : r.Reachable) (c : ClassId) : r.LaidOut c where
  inherits _ := layout_prefix h.wellFormed.ranked h.fieldsSlotted
  kind f hf _ := (h.fieldsSlotted f.owner).kind f.index (r.field f) (getElem?_fields hf.declared)
    hf.isInstance
  distinct _ _ hf hg hd hd' := mt (eq_of_slot_eq h.wellFormed.ranked h.fieldsSlotted hf hg hd hd')
  one slot hslot := by
    have ranked := h.wellFormed.ranked
    obtain ⟨f, hf, hd, rfl⟩ := exists_field_of_slot ranked h.fieldsSlotted hslot
    exact ⟨f, ⟨hf, hd, rfl⟩, fun g ⟨hg, hd', hsame⟩ =>
      eq_of_slot_eq ranked h.fieldsSlotted hg hf hd' hd hsame⟩
  staticKind f hf howner := howner ▸ h.staticKinds_of_staticField hf
  staticDistinct _ _ hf hg howner howner' :=
    mt (h.eq_of_static_slot_eq hf hg (howner.trans howner'.symm))

/-- The field is declared as it was described. -/
structure DeclaredAs (described : FieldSpec) (f : Field) : Prop where
  name : f.name = described.name
  type : FieldType.parse described.descriptor = .ok f.type
  isStatic : f.isStatic = described.isStatic

/-- A class declares the fields that were described, in their order. -/
theorem Definition.declares (h : r.Definition spec c r') :
    List.Forall₂ DeclaredAs spec.fields (r'.get c).fields := by
  obtain ⟨hread, -⟩ := h.readAs_fields
  have hstatic := map_isStatic_of_layFields h.fields
  rw [List.map_nil, List.nil_append] at hstatic
  rw [ReadAs, List.forall₂_map_left_iff, List.forall₂_map_right_iff] at hread
  generalize spec.fields = specs at hread hstatic
  generalize (r'.get c).fields = fields at hread hstatic
  induction hread with
  | nil => exact .nil
  | cons hmember _ ih =>
    rw [List.map_cons, List.map_cons, List.cons.injEq] at hstatic
    exact .cons ⟨hmember.1, hmember.2, hstatic.1⟩ (ih hstatic.2)

end Registry

namespace World

variable {w w' : World H} {c : ClassId} {f : FieldRef} {spec : ClassSpec}

/-! ## Definitions -/

/-- What a definition does. -/
structure Defines (w : World H) (spec : ClassSpec) : Prop where
  /-- It adds the class that was described. -/
  adds : ∀ c w', w.define spec = .ok (c, w') →
    w'.registry.Reachable ∧ w.registry.Definition spec c w'.registry
  /-- The fields that were described have slots. -/
  fields : ∀ c w', w.define spec = .ok (c, w') →
    List.Forall₂ Registry.DeclaredAs spec.fields (w'.registry.get c).fields ∧ w'.registry.LaidOut c
  /-- Static fields start with the defaults of their kinds. -/
  statics : ∀ c w', w.define spec = .ok (c, w') → ∀ f, w'.registry.StaticField f → f.owner = c →
    w'.getStatic? c f = some (.default (w'.registry.field f).kind)
  /-- Or it is refused for a reason, and nothing changes. -/
  refused : ∀ e, w.define spec = .error e → w.registry.Refusal spec e ∧ w.defineOrKeep spec = w
  /-- Where there is a reason, it is refused. -/
  refuses : ∀ e, w.registry.Refusal spec e → ∃ e', w.define spec = .error e'

theorem define_of_error {e : DefineError} (h : w.registry.define spec = .error e) :
    w.define spec = .error e := by
  rw [define, h]

theorem of_define_error {e : DefineError} (h : w.define spec = .error e) :
    w.registry.define spec = .error e := by
  rw [define] at h
  split at h
  case h_1 herror =>
    cases h
    exact herror
  case h_2 => cases h

theorem of_define_ok (h : w.define spec = .ok (c, w')) :
    w.registry.define spec = .ok (c, w'.registry) ∧
      (w'.classState c).statics = (w'.registry.get c).staticKinds.map Value.default := by
  rw [define] at h
  split at h
  case h_1 => cases h
  case h_2 _ r hok =>
    cases h
    refine ⟨hok, ?_⟩
    have hdefinition := Registry.definition_of_define hok
    have hroom : c.index < (w.withRegistry r).states.size := by
      show c.index < (w.states ++ Array.replicate (r.size - w.states.size) ClassState.ready).size
      rw [Array.size_append, Array.size_replicate, hdefinition.size, hdefinition.place]
      dsimp only
      omega
    rw [classState_setClassState, if_pos ⟨rfl, hroom⟩]
    rfl

theorem defines (reachable : w.registry.Reachable)
    (sort : ∀ elements, spec.sort ≠ .array elements) : w.Defines spec where
  adds c w' h := by
    have hdefine := (of_define_ok h).1
    exact ⟨reachable.define sort hdefine, Registry.definition_of_define hdefine⟩
  fields c w' h := by
    have hdefine := (of_define_ok h).1
    exact ⟨(Registry.definition_of_define hdefine).declares,
      (reachable.define sort hdefine).laidOut c⟩
  statics c w' h f hf howner := by
    obtain ⟨hdefine, hstatics⟩ := of_define_ok h
    have hkind := ((reachable.define sort hdefine).laidOut c).staticKind f hf howner
    rw [getStatic?, if_pos ⟨howner, hf.isStatic⟩, hstatics, List.getElem?_map, hkind]
    rfl
  refused e h := by
    refine ⟨Registry.refusal_of_define (of_define_error h), ?_⟩
    rw [defineOrKeep, h]
  refuses e h := by
    obtain ⟨e', herror⟩ := h.define_eq_error
    exact ⟨e', define_of_error herror⟩

/-! ## New objects -/

/-- A new object has the slots of its class, each with the default of its kind, and was not there
before. -/
structure Creates (w : World H) (c : ClassId) (o : ObjectRef) (w' : World H) : Prop where
  same : w'.registry.get c = w.registry.get c
  fresh : w.heap.size ≤ o.index
  object : w'.object o = ⟨c, .slots ((w.registry.get c).layout.map Value.default), .free⟩

theorem creates_of_allocate {call : Invoker H} {o : ObjectRef} (hcall : CallsKeep Develops call)
    (h : Guest.allocate call c w = .ok o w') : w.Creates c o w' := by
  have hc : c.index < w.registry.size := by
    refine Nat.lt_of_not_le fun hle => ?_
    rw [Guest.allocate_eq, Registry.get_of_le hle] at h
    cases h
  obtain ⟨v, hinit, -, hnew⟩ := Guest.ready_of_allocate h
  have hdevelops : w.Develops v := by
    have := develops_neutral.initClass hcall c w
    rwa [hinit] at this
  obtain ⟨rfl, rfl⟩ := Prod.mk.inj hnew
  have hsame := hdevelops.registry.get_eq c hc
  refine ⟨hsame, hdevelops.heap.size_le, ?_⟩
  rw [← hsame]
  exact Heap.get_push_self v.heap _

end World

/-- A definition that is refused answers the reason and changes nothing. -/
theorem Guest.define_of_error {ε : Type} {w : World H} {spec : ClassSpec} {e : DefineError}
    (h : w.define spec = .error e) :
    (Guest.define spec : Action H ε _) w = .ok (.error e) w := by
  rw [Guest.define, Action.step]
  simp only [h]

/-- Instance fields have slots of their own along the classes that a class extends, and static
fields in their class; a definition lays out what was described or changes nothing, and an
allocation fills the slots with defaults. -/
theorem fields_have_slots {call : Invoker H} (hcall : CallsKeep World.Develops call) {w : World H}
    (reachable : w.registry.Reachable) :
    (∀ c, w.registry.LaidOut c) ∧
    (∀ spec, (∀ elements, spec.sort ≠ .array elements) → w.Defines spec) ∧
    (∀ c o w', Guest.allocate call c w = .ok o w' → w.Creates c o w') ∧
    ∀ (v : World H) spec e, v.define spec = .error e →
      (Guest.define spec : Guest H _) v = .ok (.error e) v :=
  ⟨reachable.laidOut, fun _ => World.defines reachable,
    fun _ _ _ => World.creates_of_allocate hcall, fun _ _ _ => Guest.define_of_error⟩

/-! ## A class that extends another -/

/-- A class with fields of both sorts. -/
def wheel : ClassSpec :=
  ⟨"Wheel", .concrete, some "java/lang/Object", [],
    [⟨"made", "J", true⟩, ⟨"spokes", "I", false⟩], []⟩

/-- A class with fields on both sides of a static one, the first of them with a name that is there
above it. -/
def gear : ClassSpec :=
  ⟨"Gear", .concrete, some "Wheel", [],
    [⟨"spokes", "B", false⟩, ⟨"largest", "LGear;", true⟩, ⟨"next", "LGear;", false⟩], []⟩

def wheels : World Unit := (World.start World.defaultCallDepth .growing ()).defineOrKeep wheel

def gears : World Unit := wheels.defineOrKeep gear

/-- A class with a field twice. -/
def sprocket : ClassSpec :=
  ⟨"Sprocket", .concrete, some "Wheel", [], [⟨"teeth", "I", true⟩, ⟨"teeth", "I", false⟩], []⟩

theorem wheels_reachable : wheels.registry.Reachable := by
  rw [wheels, Registry.registry_defineOrKeep, Registry.registry_start]
  exact Registry.Reachable.basic.defineOrKeep (by nofun)

theorem gears_reachable : gears.registry.Reachable := by
  rw [gears, Registry.registry_defineOrKeep]
  exact wheels_reachable.defineOrKeep (by nofun)

theorem wheels_define_gear : wheels.define gear = .ok (⟨29⟩, gears) := by
  have hplace : (wheels.define gear).map Prod.fst = .ok ⟨29⟩ := by decide +kernel
  rw [gears, World.defineOrKeep]
  cases h : wheels.define gear with
  | error e =>
    rw [h] at hplace
    cases hplace
  | ok defined =>
    rw [h] at hplace
    rw [← show defined.1 = ⟨29⟩ from Except.ok.inj hplace]

theorem gears_facts :
    (gears.registry.get ⟨29⟩).layout = [.primitive .int, .primitive .byte, .object] ∧
    (⟨28⟩ : ClassId) ∈ gears.registry.chain ⟨29⟩ ∧
    (1 < (gears.registry.get ⟨29⟩).fields.length ∧
      (gears.registry.field ⟨⟨29⟩, 1⟩).isStatic = true ∧
      (gears.registry.field ⟨⟨29⟩, 1⟩).kind = .object) ∧
    (gears.registry.get ⟨29⟩).isInstantiable = true ∧ gears.Ready ⟨29⟩ := by
  decide +kernel

/-- The second class has a slot in front of its own and a static one, and its objects hold zeros;
the third class is refused. -/
theorem gears_have_slots :
    let call := Guest.invoke (fun _ _ => pure 0 : NativeCode Unit) 1
    (gears.registry.get ⟨29⟩).layout = [.primitive .int, .primitive .byte, .object] ∧
    (gears.registry.get ⟨28⟩).layout <+: (gears.registry.get ⟨29⟩).layout ∧
    (∃! f, gears.registry.InstanceField f ∧ f.owner ∈ gears.registry.chain ⟨29⟩ ∧
      (gears.registry.field f).slot = 1) ∧
    gears.getStatic? ⟨29⟩ ⟨⟨29⟩, 1⟩ = some (.reference none) ∧
    (∃ o w', Guest.allocate call ⟨29⟩ gears = .ok o w' ∧
      w'.object o = ⟨⟨29⟩, .slots [.int 0, .byte 0, .reference none], .free⟩) ∧
    ∃ e, wheels.define sprocket = .error e ∧ wheels.defineOrKeep sprocket = wheels := by
  intro call
  have hcall : CallsKeep World.Develops call :=
    World.develops_invoke (fun _ _ => .pure World.develops_neutral.toComposable 0) 1
  obtain ⟨hlayout, hchain, ⟨hdeclared, hstatic, hkind⟩, hconcrete, hready⟩ := gears_facts
  obtain ⟨hlaid, -, hnew, -⟩ := fields_have_slots hcall gears_reachable
  obtain ⟨-, hdefines, -⟩ := fields_have_slots hcall wheels_reachable
  refine ⟨hlayout, (hlaid ⟨29⟩).inherits ⟨28⟩ hchain, (hlaid ⟨29⟩).one 1 (by rw [hlayout]; decide),
    ?_, ?_, ?_⟩
  · rw [(hdefines gear (by nofun)).statics _ _ wheels_define_gear ⟨⟨29⟩, 1⟩
      ⟨hdeclared, hstatic⟩ rfl, hkind]
    rfl
  · obtain ⟨o, w', h⟩ : ∃ o w', Guest.allocate call ⟨29⟩ gears = .ok o w' := by
      rw [Guest.allocate_eq, if_pos hconcrete, Action.bind_ok (Guest.initClass_of_ready hready)]
      exact ⟨_, _, rfl⟩
    refine ⟨o, w', h, (hnew ⟨29⟩ o w' h).object.trans ?_⟩
    rw [hlayout]
    rfl
  · obtain ⟨e, he⟩ := (hdefines sprocket (by nofun)).refuses _ (.field
      (.duplicate (i := 0) (j := 1) (by decide) rfl rfl rfl rfl))
    exact ⟨e, he, ((hdefines sprocket (by nofun)).refused e he).2⟩

end GuestBoundary
