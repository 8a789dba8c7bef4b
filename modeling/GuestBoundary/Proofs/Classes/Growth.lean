import GuestBoundary.Proofs.Classes.Table

/-!
# How registries grow

Looking a class up can add array classes, and a definition adds one class.  What was there before
stays in its place, superclasses are still defined before their subclasses, and members are still
looked for in classes that are there.
-/

namespace GuestBoundary

/-- The class looks for its members in the class `d`. -/
def Class.Searches (k : Class) (d : ClassId) : Prop := d ∈ k.methodOrder ∨ d ∈ k.fieldOrder

namespace Registry

variable {r r' r'' : Registry} {c : ClassId} {k : Class}

/-- Members are looked for in classes that are there. -/
def Searchable (r : Registry) : Prop := ∀ c d, (r.get c).Searches d → d.index < r.size

/-- The second registry has the classes of the first one in their places and keeps their order. -/
structure Extends (r r' : Registry) : Prop where
  size_le : r.size ≤ r'.size
  get_eq : ∀ c, c.index < r.size → r'.get c = r.get c
  /-- Array classes extend the root class, which has to be there. -/
  ranked : 0 < r.size → r.Ranked → r'.Ranked
  searchable : r.Searchable → r'.Searchable

theorem Extends.refl (r : Registry) : Extends r r :=
  ⟨Nat.le_refl _, fun _ _ => rfl, fun _ h => h, id⟩

theorem Extends.trans (h : Extends r r') (h' : Extends r' r'') : Extends r r'' where
  size_le := Nat.le_trans h.size_le h'.size_le
  get_eq c hc := (h'.get_eq c (Nat.lt_of_lt_of_le hc h.size_le)).trans (h.get_eq c hc)
  ranked root ranked := h'.ranked (Nat.lt_of_lt_of_le root h.size_le) (h.ranked root ranked)
  searchable hr := h'.searchable (h.searchable hr)

/-- A class is still found by its name. -/
theorem Extends.find?_eq (h : Extends r r') {name : String} (hc : r.find? name = some c) :
    r'.find? name = some c := by
  obtain ⟨i, hi, rfl⟩ := Option.map_eq_some_iff.1 hc
  obtain ⟨hlt, hname, hbefore⟩ := Array.findIdx?_eq_some_iff_getElem.1 hi
  have hlt' : i < r'.classes.size := Nat.lt_of_lt_of_le hlt h.size_le
  have hget : ∀ j (hj : j < r.classes.size) (hj' : j < r'.classes.size),
      r'.classes[j] = r.classes[j] := by
    intro j hj hj'
    have := h.get_eq ⟨j⟩ hj
    rwa [get, get, Array.getElem?_eq_getElem hj', Array.getElem?_eq_getElem hj] at this
  refine Option.map_eq_some_iff.2 ⟨i, Array.findIdx?_eq_some_iff_getElem.2 ⟨hlt', ?_, ?_⟩, rfl⟩
  · rw [hget i hlt hlt']
    exact hname
  · intro j hj
    rw [hget j (Nat.lt_trans hj hlt) (Nat.lt_trans hj hlt')]
    exact hbefore j hj

theorem nameOf_of_find? {name : String} (h : r.find? name = some c) : r.nameOf c = name := by
  obtain ⟨i, hi, rfl⟩ := Option.map_eq_some_iff.1 h
  obtain ⟨hlt, hname, -⟩ := Array.findIdx?_eq_some_iff_getElem.1 hi
  rw [nameOf, get, Array.getElem?_eq_getElem hlt]
  exact eq_of_beq hname

/-- The class builds on classes that are there. -/
structure Founds (r : Registry) (k : Class) : Prop where
  /-- Array classes extend the root class. -/
  superclass : 0 < r.size → ∀ s, k.superclass = some s → s.index < r.size
  searches : ∀ d, k.Searches d → d = ⟨r.size⟩ ∨ ∃ c, (r.get c).Searches d

theorem Searchable.push (h : r.Searchable) (hk : r.Founds k) : (r.push k).2.Searchable := by
  intro c d hd
  rw [size_push]
  rcases get_push_cases r k c with ⟨-, hget⟩ | ⟨rfl, hget⟩ | hget <;> rw [hget] at hd
  · exact Nat.lt_succ_of_lt (h c d hd)
  · obtain rfl | ⟨c, hd⟩ := hk.searches d hd
    · exact Nat.lt_succ_self _
    · exact Nat.lt_succ_of_lt (h c d hd)
  · rcases hd with hd | hd <;> cases hd

theorem extends_push (hk : r.Founds k) : Extends r (r.push k).2 where
  size_le := by
    rw [size_push]
    omega
  get_eq _ := get_push_of_lt
  ranked root ranked := ranked.push (hk.superclass root)
  searchable hr := hr.push hk

/-- Array classes are looked through like the root class. -/
theorem founds_array (r : Registry) (elements : Component) : r.Founds {
    name := r.arrayName elements
    sort := .array elements
    superclass := some CoreClass.object.id
    interfaces := []
    fields := []
    methods := []
    layout := []
    vtable := (r.get CoreClass.object.id).vtable
    methodOrder := ⟨r.size⟩ :: (r.get CoreClass.object.id).methodOrder
    fieldOrder := ⟨r.size⟩ :: (r.get CoreClass.object.id).fieldOrder } where
  superclass root s hs := by
    cases hs
    exact root
  searches d hd := by
    rcases hd with hd | hd
    · exact (List.mem_cons.1 hd).imp_right fun hd => ⟨_, .inl hd⟩
    · exact (List.mem_cons.1 hd).imp_right fun hd => ⟨_, .inr hd⟩

theorem founds_defined {spec : ClassSpec} {superclass : Option ClassId} {interfaces : List ClassId}
    {fields : List Field} {layout : List Kind} {methods : List Method} {vtable : List MethodRef}
    (hextends : spec.superclass.mapM r.known = .ok superclass) : r.Founds {
      name := spec.name
      sort := spec.sort
      superclass, interfaces, fields, methods, layout, vtable
      methodOrder := ⟨r.size⟩ :: ((superclass.map r.get).map Class.methodOrder).getD [] ++
        interfaces.flatMap fun i => (r.get i).methodOrder
      fieldOrder := ⟨r.size⟩ :: (interfaces.flatMap fun i => (r.get i).fieldOrder) ++
        ((superclass.map r.get).map Class.fieldOrder).getD [] } where
  superclass _ s hs := lt_size_of_superclass hextends hs
  searches d hd := by
    have hparent : ∀ {order : Class → List ClassId},
        d ∈ ((superclass.map r.get).map order).getD [] → ∃ s, d ∈ order (r.get s) := by
      intro order hd
      cases superclass with
      | none => cases hd
      | some s => exact ⟨s, hd⟩
    have hinterfaces : ∀ {order : Class → List ClassId},
        d ∈ (interfaces.flatMap fun i => order (r.get i)) → ∃ i, d ∈ order (r.get i) := by
      intro order hd
      obtain ⟨i, -, hd⟩ := List.mem_flatMap.1 hd
      exact ⟨i, hd⟩
    rcases hd with hd | hd
    · rcases List.mem_append.1 hd with hd | hd
      · exact (List.mem_cons.1 hd).imp_right fun hd => (hparent hd).imp fun _ => .inl
      · exact .inr ((hinterfaces hd).imp fun _ => .inl)
    · rcases List.mem_append.1 hd with hd | hd
      · exact (List.mem_cons.1 hd).imp_right fun hd => (hinterfaces hd).imp fun _ => .inr
      · exact .inr ((hparent hd).imp fun _ => .inr)

theorem extends_arrayClass (r : Registry) (elements : Component) :
    Extends r (r.arrayClass elements).2 := by
  unfold arrayClass
  cases r.find? (r.arrayName elements) with
  | some c => exact .refl r
  | none => exact extends_push (r.founds_array elements)

theorem extends_findChars {cs : List Char} (h : r.findChars cs = .ok (c, r')) : Extends r r' := by
  induction hn : cs.length using Nat.strongRecOn generalizing cs c r' with
  | _ n ih =>
    rw [findChars] at h
    split at h
    case h_1 =>
      cases h
      exact .refl r
    case h_2 =>
      split at h
      case h_1 p _ =>
        obtain rfl := congrArg Prod.snd (Except.ok.inj h)
        exact extends_arrayClass r _
      case h_2 name shorter _ =>
        split at h
        case h_1 d r₁ hd =>
          obtain rfl := congrArg Prod.snd (Except.ok.inj h)
          exact (ih _ (hn ▸ shorter) hd rfl).trans (extends_arrayClass r₁ _)
        case h_2 => cases h
      case h_3 => cases h

theorem extends_findClass {name : String} (h : r.findClass name = .ok (c, r')) : Extends r r' :=
  extends_findChars h

/-- A definition adds one class, which builds on classes that are there. -/
theorem push_of_define {spec : ClassSpec} (h : r.define spec = .ok (c, r')) :
    ∃ k, r.push k = (c, r') ∧ r.Founds k := by
  unfold define at h
  cases fresh : r.find? spec.name with
  | some d =>
    rw [fresh] at h
    cases h
  | none =>
    rw [fresh] at h
    obtain ⟨superclass, hextends, h⟩ := except_bind_eq_ok.1 h
    obtain ⟨interfaces, -, h⟩ := except_bind_eq_ok.1 h
    obtain ⟨⟨fields, layout⟩, -, h⟩ := except_bind_eq_ok.1 h
    obtain ⟨⟨methods, vtable⟩, -, h⟩ := except_bind_eq_ok.1 h
    exact ⟨_, Except.ok.inj h, founds_defined hextends⟩

theorem Admits.founds (h : r.Admits k) : r.Founds k := by
  cases h with
  | defined _ _ hextends => exact founds_defined hextends
  | array => exact r.founds_array _

theorem Reachable.searchable (h : r.Reachable) : r.Searchable :=
  h.induction (P := Searchable) (fun _ _ hd => by rcases hd with hd | hd <;> cases hd)
    fun _ _ hr hk => hr.push hk.founds

end Registry

end GuestBoundary
