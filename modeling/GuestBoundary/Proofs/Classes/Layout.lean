import GuestBoundary.Proofs.Classes.Dispatch

/-!
# Slots of instance fields

A class numbers its instance fields behind the slots that it inherits, one slot for each
(`Slotted`, `slotted_of_layFields`).  Along the chain of a class this gives every slot to exactly
one field (`fieldOfSlot`) and each field a slot of its kind (`layout_of_mem_chain`).  A type that is
not in the chain has numbered its fields for itself.
-/

namespace GuestBoundary.Registry

variable {r : Registry} {c d : ClassId} {k : Class} {f g : FieldRef}

/-! ## The fields of one class -/

/-- The instance fields among `fields` have the slots of `layout` behind those of `inherited`, one
each, in which their kinds stand. -/
structure Slotted (inherited : List Kind) (fields : List Field) (layout : List Kind) : Prop where
  extends_inherited : inherited <+: layout
  behind : ∀ (i : Nat) (f : Field), fields[i]? = some f → f.isStatic = false →
    inherited.length ≤ f.slot
  kind : ∀ (i : Nat) (f : Field), fields[i]? = some f → f.isStatic = false →
    layout[f.slot]? = some f.kind
  distinct : ∀ (i j : Nat) (f g : Field), fields[i]? = some f → fields[j]? = some g →
    f.isStatic = false → g.isStatic = false → f.slot = g.slot → i = j
  covered : ∀ slot, inherited.length ≤ slot → slot < layout.length →
    ∃ (i : Nat) (f : Field), fields[i]? = some f ∧ f.isStatic = false ∧ f.slot = slot

section Slotted

variable {inherited layout : List Kind} {fields : List Field}

theorem Slotted.start (inherited : List Kind) : Slotted inherited [] inherited where
  extends_inherited := List.prefix_rfl
  behind := nofun
  kind := nofun
  distinct := nofun
  covered := fun _ hle hlt => absurd hle (Nat.not_le.2 hlt)

theorem Slotted.slot_lt (h : Slotted inherited fields layout) {i : Nat} {f : Field}
    (hf : fields[i]? = some f) (hinstance : f.isStatic = false) : f.slot < layout.length :=
  (List.getElem?_eq_some_iff.1 (h.kind i f hf hinstance)).1

/-- A static field takes no slot. -/
theorem Slotted.skip (h : Slotted inherited fields layout) {f : Field} (hf : f.isStatic = true) :
    Slotted inherited (fields ++ [f]) layout := by
  have hold : ∀ {i : Nat} {f' : Field}, (fields ++ [f])[i]? = some f' → f'.isStatic = false →
      fields[i]? = some f' := by
    intro i f' hf' hinstance
    rcases getElem?_concat_eq_some_iff.1 hf' with hf' | ⟨-, rfl⟩
    · exact hf'
    · rw [hf] at hinstance
      cases hinstance
  refine ⟨h.extends_inherited, fun i f' hf' hi => h.behind i f' (hold hf' hi) hi,
    fun i f' hf' hi => h.kind i f' (hold hf' hi) hi,
    fun i j f' g' hf' hg' hi hj => h.distinct i j f' g' (hold hf' hi) (hold hg' hj) hi hj, ?_⟩
  intro slot hle hlt
  obtain ⟨i, f', hf', hrest⟩ := h.covered slot hle hlt
  exact ⟨i, f', getElem?_concat_eq_some_iff.2 (.inl hf'), hrest⟩

/-- An instance field takes the next slot. -/
theorem Slotted.enter (h : Slotted inherited fields layout) {f : Field}
    (hinstance : f.isStatic = false) (hslot : f.slot = layout.length) :
    Slotted inherited (fields ++ [f]) (layout ++ [f.kind]) := by
  have hinherited := h.extends_inherited.length_le
  refine ⟨h.extends_inherited.trans (List.prefix_append _ _), ?_, ?_, ?_, ?_⟩
  · intro i f' hf' hi
    rcases getElem?_concat_eq_some_iff.1 hf' with hf' | ⟨-, rfl⟩
    · exact h.behind i f' hf' hi
    · omega
  · intro i f' hf' hi
    rcases getElem?_concat_eq_some_iff.1 hf' with hf' | ⟨-, rfl⟩
    · rw [List.getElem?_append_left (h.slot_lt hf' hi)]
      exact h.kind i f' hf' hi
    · rw [hslot, List.getElem?_concat_length]
  · intro i j f' g' hf' hg' hi hj hsame
    rcases getElem?_concat_eq_some_iff.1 hf' with hold | ⟨rfl, rfl⟩ <;>
      rcases getElem?_concat_eq_some_iff.1 hg' with hold' | ⟨rfl, rfl⟩
    · exact h.distinct i j f' g' hold hold' hi hj hsame
    · have := h.slot_lt hold hi
      omega
    · have := h.slot_lt hold' hj
      omega
    · rfl
  · intro slot hle hlt
    rw [List.length_append, List.length_singleton] at hlt
    by_cases hnew : slot = layout.length
    · exact ⟨fields.length, f, getElem?_concat_eq_some_iff.2 (.inr ⟨rfl, rfl⟩), hinstance,
        hslot.trans hnew.symm⟩
    · obtain ⟨i, f', hf', hrest⟩ := h.covered slot hle (by omega)
      exact ⟨i, f', getElem?_concat_eq_some_iff.2 (.inl hf'), hrest⟩

end Slotted

section Laying

variable {inherited layout layout' : List Kind} {fields done : List Field} {statics : Nat}
  {specs : List FieldSpec}

/-- Where the slots are given, the first field has a type, and it has taken the next slot of its
sort. -/
theorem layFields_cons_eq_ok {spec : FieldSpec}
    (h : layFields layout statics done (spec :: specs) = .ok (fields, layout')) :
    ∃ type,
      (spec.isStatic = true ∧ layFields layout (statics + 1)
        (done ++ [⟨spec.name, type, true, statics⟩]) specs = .ok (fields, layout')) ∨
      (spec.isStatic = false ∧ layFields (layout ++ [type.kind]) statics
        (done ++ [⟨spec.name, type, false, layout.length⟩]) specs = .ok (fields, layout')) := by
  rw [layFields] at h
  split at h
  case h_1 => cases h
  case h_2 type _ =>
    split at h
    case isTrue => cases h
    case isFalse =>
      split at h
      case isTrue hstatic => exact ⟨type, .inl ⟨hstatic, h⟩⟩
      case isFalse hinstance => exact ⟨type, .inr ⟨Bool.eq_false_iff.2 hinstance, h⟩⟩

/-- Giving slots to fields lays them out behind what is inherited. -/
theorem slotted_of_layFields (h : Slotted inherited done layout)
    (hlay : layFields layout statics done specs = .ok (fields, layout')) :
    Slotted inherited fields layout' := by
  induction specs generalizing layout statics done with
  | nil =>
    cases hlay
    exact h
  | cons spec specs ih =>
    obtain ⟨type, ⟨-, hrest⟩ | ⟨-, hrest⟩⟩ := layFields_cons_eq_ok hlay
    · exact ih (h.skip rfl) hrest
    · let f : Field := ⟨spec.name, type, false, layout.length⟩
      have hentered : Slotted inherited (done ++ [f]) (layout ++ [f.kind]) := h.enter rfl rfl
      exact ih hentered hrest

end Laying

/-! ## The fields of every class -/

/-- The slots that a class inherits from the class that it extends, if there is one. -/
def inheritedLayout (r : Registry) (superclass : Option ClassId) : List Kind :=
  ((superclass.map r.get).map Class.layout).getD []

/-- Every class has its fields laid out behind those that it inherits. -/
def FieldsSlotted (r : Registry) : Prop :=
  ∀ c, Slotted (r.inheritedLayout (r.get c).superclass) (r.get c).fields (r.get c).layout

/-- The class above all others has no instance fields. -/
def RootPlain (r : Registry) : Prop := (r.get CoreClass.object.id).layout = []

theorem inheritedLayout_push {superclass : Option ClassId}
    (h : ∀ s, superclass = some s → s.index < r.size) :
    (r.push k).2.inheritedLayout superclass = r.inheritedLayout superclass := by
  cases superclass with
  | none => rfl
  | some s =>
    rw [inheritedLayout, Option.map_some, get_push_of_lt (h s rfl)]
    rfl

theorem Admits.slotted (h : r.Admits k) (root : 0 < r.size → r.RootPlain) :
    Slotted (r.inheritedLayout k.superclass) k.fields k.layout := by
  cases h with
  | defined _ _ _ _ hfields => exact slotted_of_layFields (.start _) hfields
  | array _ hsize _ =>
    have hroot : r.inheritedLayout (some CoreClass.object.id) = [] := root hsize
    dsimp only
    rw [hroot]
    exact .start []

/-- A class that is admitted keeps the fields of all classes laid out. -/
theorem FieldsSlotted.push (h : r.FieldsSlotted) (wf : r.WellFormed)
    (root : 0 < r.size → r.RootPlain) (hk : r.Admits k) : (r.push k).2.FieldsSlotted := by
  intro c
  rcases get_push_cases r k c with ⟨hc, hget⟩ | ⟨rfl, hget⟩ | hget
  · rw [hget, inheritedLayout_push fun s hs => Nat.lt_trans (wf.ranked c s hs) hc]
    exact h c
  · rw [hget, inheritedLayout_push fun s => hk.superclass_lt]
    exact hk.slotted root
  · rw [hget]
    exact .start []

theorem RootPlain.of_push (h : (r.push k).2.RootPlain) (hsize : 0 < r.size) : r.RootPlain := by
  have hget : (r.push k).2.get CoreClass.object.id = r.get CoreClass.object.id :=
    get_push_of_lt hsize
  unfold RootPlain at h
  rwa [hget] at h

theorem Reachable.rootPlain (h : r.Reachable) : r.RootPlain := by
  have push : ∀ r k, (0 < size r ∧ r.RootPlain) → r.Admits k →
      0 < (r.push k).2.size ∧ (r.push k).2.RootPlain := by
    rintro r k ⟨hsize, hroot⟩ -
    have hget : (r.push k).2.get CoreClass.object.id = r.get CoreClass.object.id :=
      get_push_of_lt hsize
    refine ⟨by rw [size_push]; omega, ?_⟩
    unfold RootPlain
    rwa [hget]
  suffices 0 < r.size ∧ r.RootPlain from this.2
  induction h with
  | basic => exact ⟨by rw [size_basic]; decide, by unfold RootPlain; decide +kernel⟩
  | define _ sort h ih => exact of_define push sort h ih
  | arrayClass _ known ih => exact of_arrayClass push ih.1 known ih

theorem Reachable.fieldsSlotted (h : r.Reachable) : r.FieldsSlotted := by
  have push : ∀ (r : Registry) k, (r.WellFormed ∧ (r.RootPlain → r.FieldsSlotted)) → r.Admits k →
      (r.push k).2.WellFormed ∧ ((r.push k).2.RootPlain → (r.push k).2.FieldsSlotted) := by
    rintro r k ⟨wf, hslotted⟩ hk
    refine ⟨wf.push hk, fun hroot => ?_⟩
    rcases Nat.eq_zero_or_pos r.size with hsize | hsize
    · -- the first class inherits nothing
      have hnone : r.FieldsSlotted := fun c => by
        rw [get_of_le (by omega)]
        exact .start []
      exact hnone.push wf (fun hpos => absurd hsize (by omega)) hk
    · have hroot := hroot.of_push hsize
      exact (hslotted hroot).push wf (fun _ => hroot) hk
  have hall : r.WellFormed ∧ (r.RootPlain → r.FieldsSlotted) :=
    h.induction ⟨wellFormed_empty, fun _ _ => .start []⟩ push
  exact hall.2 h.rootPlain

/-! ## Fields along the chain -/

/-- The reference names an instance field that its class declares. -/
structure InstanceField (r : Registry) (f : FieldRef) : Prop where
  declared : f.index < (r.get f.owner).fields.length
  isInstance : (r.field f).isStatic = false

theorem getElem?_fields (h : f.index < (r.get f.owner).fields.length) :
    (r.get f.owner).fields[f.index]? = some (r.field f) := by
  rw [field, List.getElem?_eq_getElem h]
  rfl

theorem Ranked.induction {P : ClassId → Prop} (h : r.Ranked)
    (step : ∀ c, (∀ s, (r.get c).superclass = some s → P s) → P c) (c : ClassId) : P c := by
  induction hn : c.index using Nat.strongRecOn generalizing c with
  | _ n ih => exact step c fun s hs => ih s.index (hn ▸ h c s hs) s rfl

theorem Ranked.mem_chain_iff (h : r.Ranked) :
    d ∈ r.chain c ↔ d = c ∨ ∃ s, (r.get c).superclass = some s ∧ d ∈ r.chain s := by
  rw [h.chain_eq, List.mem_cons]
  cases (r.get c).superclass with
  | none => simp
  | some s => simp

section Chain

variable (ranked : r.Ranked) (slotted : r.FieldsSlotted)
include ranked slotted

theorem layout_prefix (hd : d ∈ r.chain c) : (r.get d).layout <+: (r.get c).layout := by
  induction c using ranked.induction with
  | step c ih =>
    rcases ranked.mem_chain_iff.1 hd with rfl | ⟨s, hs, hd⟩
    · exact List.prefix_rfl
    · have hinherited := (slotted c).extends_inherited
      rw [hs] at hinherited
      exact (ih s hs hd).trans hinherited

/-- A field of the chain stands in a slot of its kind. -/
theorem layout_of_mem_chain (hf : r.InstanceField f) (hd : f.owner ∈ r.chain c) :
    (r.get c).layout[(r.field f).slot]? = some (r.field f).kind := by
  have hkind := (slotted f.owner).kind f.index (r.field f) (getElem?_fields hf.declared)
    hf.isInstance
  obtain ⟨rest, hrest⟩ := layout_prefix ranked slotted hd
  rw [← hrest, List.getElem?_append_left (List.getElem?_eq_some_iff.1 hkind).1, hkind]

/-- What a superclass declares stands in front of what the class itself declares. -/
theorem slot_lt_of_superclass {s : ClassId} (hs : (r.get c).superclass = some s)
    (hf : r.InstanceField f) (hd : f.owner ∈ r.chain s) (hg : r.InstanceField g)
    (howner : g.owner = c) : (r.field f).slot < (r.field g).slot := by
  have hslot := layout_of_mem_chain ranked slotted hf hd
  have hlt := (List.getElem?_eq_some_iff.1 hslot).1
  have hbehind := (slotted g.owner).behind g.index (r.field g) (getElem?_fields hg.declared)
    hg.isInstance
  rw [howner, hs] at hbehind
  exact Nat.lt_of_lt_of_le hlt hbehind

/-- Two fields of the chain in one slot are one field. -/
theorem eq_of_slot_eq (hf : r.InstanceField f) (hg : r.InstanceField g)
    (hd : f.owner ∈ r.chain c) (hd' : g.owner ∈ r.chain c)
    (hslot : (r.field f).slot = (r.field g).slot) : f = g := by
  induction c using ranked.induction with
  | step c ih =>
    rcases ranked.mem_chain_iff.1 hd with howner | ⟨s, hs, hd⟩ <;>
      rcases ranked.mem_chain_iff.1 hd' with howner' | ⟨s', hs', hd'⟩
    · have hplace := getElem?_fields hg.declared
      rw [howner'.trans howner.symm] at hplace
      have hindex := (slotted f.owner).distinct f.index g.index (r.field f) (r.field g)
        (getElem?_fields hf.declared) hplace hf.isInstance hg.isInstance hslot
      obtain ⟨o, i⟩ := f
      obtain ⟨o', i'⟩ := g
      cases hindex
      cases howner
      cases howner'
      rfl
    · have := slot_lt_of_superclass ranked slotted hs' hg hd' hf howner
      omega
    · have := slot_lt_of_superclass ranked slotted hs hf hd hg howner'
      omega
    · obtain rfl := Option.some.inj (hs.symm.trans hs')
      exact ih s hs hd hd'

/-- Every slot belongs to a field of the chain. -/
theorem exists_field_of_slot {slot : Nat} (hslot : slot < (r.get c).layout.length) :
    ∃ f, r.InstanceField f ∧ f.owner ∈ r.chain c ∧ (r.field f).slot = slot := by
  induction c using ranked.induction with
  | step c ih =>
    by_cases hown : (r.inheritedLayout (r.get c).superclass).length ≤ slot
    case pos =>
      obtain ⟨i, f, hf, hinstance, rfl⟩ := (slotted c).covered slot hown hslot
      have hfield : r.field ⟨c, i⟩ = f := by
        rw [field, hf]
        rfl
      refine ⟨⟨c, i⟩, ⟨(List.getElem?_eq_some_iff.1 hf).1, by rw [hfield]; exact hinstance⟩, ?_, ?_⟩
      · exact ranked.mem_chain_iff.2 (.inl rfl)
      · rw [hfield]
    case neg =>
      cases hs : (r.get c).superclass with
      | none =>
        rw [hs] at hown
        exact absurd (Nat.zero_le slot) hown
      | some s =>
        rw [hs] at hown
        obtain ⟨f, hf, hd, hslot⟩ := ih s hs (Nat.lt_of_not_le hown)
        exact ⟨f, hf, ranked.mem_chain_iff.2 (.inr ⟨s, hs, hd⟩), hslot⟩

end Chain

end GuestBoundary.Registry
