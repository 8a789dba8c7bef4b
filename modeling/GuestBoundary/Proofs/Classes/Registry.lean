import GuestBoundary.Guest.Bootstrap

/-!
# Registries that can come about

A registry starts with the basic classes and grows by definitions and by array classes, one class at
a time; nothing that is in it ever changes.  `Admits` lists what the next class can be, and
`Reachable.induction` is how facts about every registry are proved: they hold of the empty one, and
a class that is admitted does not break them.
-/

namespace GuestBoundary

variable {ε α β : Type}

/-- Two steps succeed if the first one does and the second one does with its answer. -/
theorem except_bind_eq_ok {x : Except ε α} {f : α → Except ε β} {b : β} :
    x >>= f = .ok b ↔ ∃ a, x = .ok a ∧ f a = .ok b := by
  cases x with
  | ok a => exact ⟨fun h => ⟨a, rfl, h⟩, fun ⟨a', ha, h⟩ => by cases ha; exact h⟩
  | error e => exact ⟨nofun, fun ⟨a, ha, _⟩ => nomatch ha⟩

namespace Registry

variable {r r' : Registry} {c : ClassId} {k : Class}

/-! ## One more class -/

theorem size_push (r : Registry) (k : Class) : (r.push k).2.size = r.size + 1 :=
  Array.size_push k

theorem get_push_of_lt (h : c.index < r.size) : (r.push k).2.get c = r.get c := by
  show (r.classes.push k)[c.index]?.getD default = r.classes[c.index]?.getD default
  have hne : c.index ≠ r.classes.size := Nat.ne_of_lt h
  rw [Array.getElem?_push, if_neg hne]

theorem get_push_self : (r.push k).2.get ⟨r.size⟩ = k := by
  show (r.classes.push k)[r.classes.size]?.getD default = k
  rw [Array.getElem?_push, if_pos rfl]
  rfl

/-- A place that no class has counts as a class without anything. -/
theorem get_of_le (h : r.size ≤ c.index) : r.get c = default := by
  show r.classes[c.index]?.getD default = default
  rw [Array.getElem?_eq_none h]
  rfl

/-- A class after one more has come is an old one, the new one or none. -/
theorem get_push_cases (r : Registry) (k : Class) (c : ClassId) :
    (c.index < r.size ∧ (r.push k).2.get c = r.get c) ∨
      (c = ⟨r.size⟩ ∧ (r.push k).2.get c = k) ∨ (r.push k).2.get c = default := by
  rcases Nat.lt_trichotomy c.index r.size with h | h | h
  · exact .inl ⟨h, get_push_of_lt h⟩
  · obtain rfl : c = ⟨r.size⟩ := by rw [← h]
    exact .inr (.inl ⟨rfl, get_push_self⟩)
  · refine .inr (.inr (get_of_le ?_))
    rw [size_push]
    exact h

theorem method_push_of_lt {m : MethodRef} (h : m.owner.index < r.size) :
    (r.push k).2.method m = r.method m := by
  rw [method, get_push_of_lt h]
  rfl

theorem lt_size_of_find? {name : String} (h : r.find? name = some c) : c.index < r.size := by
  obtain ⟨i, hi, rfl⟩ := Option.map_eq_some_iff.1 h
  exact (Array.findIdx?_eq_some_iff_getElem.1 hi).1

theorem lt_size_of_known {name : String} (h : r.known name = .ok c) : c.index < r.size := by
  unfold known at h
  cases hf : r.find? name with
  | none =>
    rw [hf] at h
    cases h
  | some d =>
    rw [hf] at h
    cases h
    exact lt_size_of_find? hf

/-! ## What the next class can be -/

/-- The superclass of a class that is described, if it has one, is there. -/
theorem lt_size_of_superclass {superclass : Option String} {s : Option ClassId}
    (h : superclass.mapM r.known = .ok s) {c : ClassId} (hc : s = some c) : c.index < r.size := by
  subst hc
  cases superclass with
  | none => cases h
  | some name =>
    obtain ⟨d, hd, h⟩ := except_bind_eq_ok.1 h
    cases h
    exact lt_size_of_known hd

/-- The classes that a registry admits as the next one. -/
inductive Admits (r : Registry) : Class → Prop where
  /-- What is described has another name than the classes that are there, extends and implements
  classes that are there, and has members that can be laid out. -/
  | defined {spec : ClassSpec} {superclass : Option ClassId} {interfaces : List ClassId}
    {fields : List Field} {layout : List Kind} {methods : List Method} {vtable : List MethodRef}
    (sort : ∀ elements, spec.sort ≠ .array elements)
    (fresh : r.find? spec.name = none)
    (hextends : spec.superclass.mapM r.known = .ok superclass)
    (himplements : spec.interfaces.mapM r.known = .ok interfaces)
    (hfields : layFields (((superclass.map r.get).map Class.layout).getD []) 0 [] spec.fields =
      .ok (fields, layout))
    (hmethods : r.layMethods ⟨r.size⟩ (((superclass.map r.get).map Class.vtable).getD []) []
      spec.methods = .ok (methods, vtable)) :
    Admits r {
      name := spec.name
      sort := spec.sort
      superclass, interfaces, fields, methods, layout, vtable
      methodOrder := ⟨r.size⟩ :: ((superclass.map r.get).map Class.methodOrder).getD [] ++
        interfaces.flatMap fun i => (r.get i).methodOrder
      fieldOrder := ⟨r.size⟩ :: (interfaces.flatMap fun i => (r.get i).fieldOrder) ++
        ((superclass.map r.get).map Class.fieldOrder).getD [] }
  /-- An array class has elements of a kind or of a class that is there. -/
  | array {elements : Component} (fresh : r.find? (r.arrayName elements) = none)
    (root : 0 < r.size) (known : ∀ e, elements = .reference e → e.index < r.size) :
    Admits r {
      name := r.arrayName elements
      sort := .array elements
      superclass := some CoreClass.object.id
      interfaces := []
      fields := []
      methods := []
      layout := []
      vtable := (r.get CoreClass.object.id).vtable
      methodOrder := ⟨r.size⟩ :: (r.get CoreClass.object.id).methodOrder
      fieldOrder := ⟨r.size⟩ :: (r.get CoreClass.object.id).fieldOrder }

/-- A definition that succeeds adds a class that is admitted. -/
theorem admits_of_define {spec : ClassSpec} (sort : ∀ elements, spec.sort ≠ .array elements)
    (h : r.define spec = .ok (c, r')) : ∃ k, r.Admits k ∧ r.push k = (c, r') := by
  unfold define at h
  cases fresh : r.find? spec.name with
  | some d =>
    rw [fresh] at h
    cases h
  | none =>
    rw [fresh] at h
    obtain ⟨superclass, hextends, h⟩ := except_bind_eq_ok.1 h
    obtain ⟨interfaces, himplements, h⟩ := except_bind_eq_ok.1 h
    obtain ⟨⟨fields, layout⟩, hfields, h⟩ := except_bind_eq_ok.1 h
    obtain ⟨⟨methods, vtable⟩, hmethods, h⟩ := except_bind_eq_ok.1 h
    exact ⟨_, .defined sort fresh hextends himplements hfields hmethods, Except.ok.inj h⟩

/-- An array class that is not there yet is admitted. -/
theorem admits_of_arrayClass {elements : Component} (root : 0 < r.size)
    (known : ∀ e, elements = .reference e → e.index < r.size) :
    (r.arrayClass elements).2 = r ∨ ∃ k, r.Admits k ∧ r.push k = r.arrayClass elements := by
  unfold arrayClass
  cases fresh : r.find? (r.arrayName elements) with
  | some d => exact .inl rfl
  | none => exact .inr ⟨_, .array fresh root known, rfl⟩

/-! ## How registries come about -/

/-- The registry after a definition; one that fails changes nothing. -/
def defineOrKeep (r : Registry) (spec : ClassSpec) : Registry :=
  match r.define spec with
  | .ok (_, r) => r
  | .error _ => r

/-- The registry with the classes that every run starts with. -/
def basic : Registry := World.firstClasses.foldl defineOrKeep .empty

/-- The registries that definitions and array classes make of the basic one. -/
inductive Reachable : Registry → Prop where
  | basic : Reachable basic
  | define {r r' : Registry} {spec : ClassSpec} {c : ClassId} (reachable : Reachable r)
    (sort : ∀ elements, spec.sort ≠ .array elements) (defined : r.define spec = .ok (c, r')) :
    Reachable r'
  | arrayClass {r : Registry} {elements : Component} (reachable : Reachable r)
    (known : ∀ e, elements = .reference e → e.index < r.size) :
    Reachable (r.arrayClass elements).2

theorem size_basic : basic.size = 28 := by decide +kernel

theorem sort_of_mem_firstClasses {spec : ClassSpec} (h : spec ∈ World.firstClasses)
    (elements : Component) : spec.sort ≠ .array elements := by
  have hconcrete : spec.sort = .concrete := by
    simp only [World.firstClasses, List.mem_append, List.mem_map] at h
    rcases h with ⟨k, -, rfl⟩ | ⟨k, -, rfl⟩ <;> rfl
  rw [hconcrete]
  nofun

/-! ### What admitted classes keep -/

section Push

variable {P : Registry → Prop} (push : ∀ r k, P r → r.Admits k → P (r.push k).2)
include push

theorem of_define {spec : ClassSpec} (sort : ∀ elements, spec.sort ≠ .array elements)
    (h : r.define spec = .ok (c, r')) (hr : P r) : P r' := by
  obtain ⟨k, hk, hpush⟩ := admits_of_define sort h
  have := push r k hr hk
  rwa [hpush] at this

theorem of_arrayClass {elements : Component} (root : 0 < r.size)
    (known : ∀ e, elements = .reference e → e.index < r.size) (hr : P r) :
    P (r.arrayClass elements).2 := by
  rcases admits_of_arrayClass root known with hsame | ⟨k, hk, hpush⟩
  · rwa [hsame]
  · have := push r k hr hk
    rwa [hpush] at this

theorem of_defineOrKeep {spec : ClassSpec} (sort : ∀ elements, spec.sort ≠ .array elements)
    (hr : P r) : P (r.defineOrKeep spec) := by
  unfold defineOrKeep
  split
  case h_1 h => exact of_define push sort h hr
  case h_2 => exact hr

theorem of_definitions {specs : List ClassSpec}
    (sort : ∀ spec ∈ specs, ∀ elements, spec.sort ≠ .array elements) (hr : P r) :
    P (specs.foldl defineOrKeep r) := by
  induction specs generalizing r with
  | nil => exact hr
  | cons spec specs ih =>
    obtain ⟨hspec, hspecs⟩ := List.forall_mem_cons.1 sort
    exact ih hspecs (of_defineOrKeep push hspec hr)

end Push

theorem Reachable.size_pos (h : r.Reachable) : 0 < r.size := by
  have push : ∀ r k, 0 < size r → r.Admits k → 0 < (r.push k).2.size := by
    intro r k _ _
    rw [size_push]
    exact Nat.succ_pos _
  induction h with
  | basic => rw [size_basic]; decide
  | define _ sort h ih => exact of_define push sort h ih
  | arrayClass _ known ih => exact of_arrayClass push ih known ih

/-- What holds of the empty registry, and is kept by every class that is admitted, holds of all
registries that can come about. -/
theorem Reachable.induction {P : Registry → Prop} (empty : P .empty)
    (push : ∀ r k, P r → r.Admits k → P (r.push k).2) (h : r.Reachable) : P r := by
  induction h with
  | basic => exact of_definitions push (fun _ => sort_of_mem_firstClasses) empty
  | define _ sort h ih => exact of_define push sort h ih
  | arrayClass hr known ih => exact of_arrayClass push hr.size_pos known ih

/-! ### Definitions and look-ups of a run -/

theorem Reachable.defineOrKeep {spec : ClassSpec} (h : r.Reachable)
    (sort : ∀ elements, spec.sort ≠ .array elements) : (r.defineOrKeep spec).Reachable := by
  unfold Registry.defineOrKeep
  split
  case h_1 hdefine => exact h.define sort hdefine
  case h_2 => exact h

theorem lt_size_of_arrayClass (elements : Component) :
    (r.arrayClass elements).1.index < (r.arrayClass elements).2.size := by
  unfold arrayClass
  split
  case h_1 hf => exact lt_size_of_find? hf
  case h_2 => exact Nat.lt_of_lt_of_eq (Nat.lt_succ_self _) (size_push _ _).symm

theorem Reachable.of_arrayClass_eq {elements : Component} (h : r.Reachable)
    (known : ∀ e, elements = .reference e → e.index < r.size)
    (heq : r.arrayClass elements = (c, r')) : r'.Reachable ∧ c.index < r'.size := by
  have hr := h.arrayClass known
  have hlt := lt_size_of_arrayClass (r := r) elements
  rw [heq] at hr hlt
  exact ⟨hr, hlt⟩

/-- Looking a name up leads from registries that can come about to such ones. -/
theorem Reachable.findChars {cs : List Char} (h : r.Reachable)
    (hfind : r.findChars cs = .ok (c, r')) : r'.Reachable ∧ c.index < r'.size := by
  induction hn : cs.length using Nat.strongRecOn generalizing cs c r' with
  | _ n ih =>
    rw [Registry.findChars] at hfind
    split at hfind
    case h_1 d hd =>
      cases hfind
      exact ⟨h, lt_size_of_find? hd⟩
    case h_2 =>
      split at hfind
      case h_1 p _ =>
        refine h.of_arrayClass_eq (fun e he => ?_) (Except.ok.inj hfind)
        cases he
      case h_2 name shorter _ =>
        split at hfind
        case h_1 d r₁ hd =>
          obtain ⟨hr₁, hlt⟩ := ih _ (hn ▸ shorter) hd rfl
          refine hr₁.of_arrayClass_eq (fun e he => ?_) (Except.ok.inj hfind)
          cases he
          exact hlt
        case h_2 => cases hfind
      case h_3 => cases hfind

theorem Reachable.findClass {name : String} (h : r.Reachable)
    (hfind : r.findClass name = .ok (c, r')) : r'.Reachable ∧ c.index < r'.size :=
  h.findChars hfind

theorem registry_defineOrKeep {H : Type} (w : World H) (spec : ClassSpec) :
    (w.defineOrKeep spec).registry = w.registry.defineOrKeep spec := by
  unfold World.defineOrKeep World.define Registry.defineOrKeep
  cases w.registry.define spec with
  | ok p => rfl
  | error e => rfl

/-- A run starts with the basic classes. -/
theorem registry_start {H : Type} (maxCallDepth : Nat) (memory : HostMemory) (host : H) :
    (World.start maxCallDepth memory host).registry = basic := by
  have hfold : ∀ (specs : List ClassSpec) (w : World H),
      (specs.foldl World.defineOrKeep w).registry =
        specs.foldl Registry.defineOrKeep w.registry := by
    intro specs
    induction specs with
    | nil => exact fun _ => rfl
    | cons spec specs ih =>
      intro w
      rw [List.foldl_cons, List.foldl_cons, ih, registry_defineOrKeep]
  exact hfold _ _

end Registry

end GuestBoundary
