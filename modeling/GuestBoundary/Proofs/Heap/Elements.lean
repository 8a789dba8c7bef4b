import GuestBoundary.Proofs.Classes.Subtypes
import GuestBoundary.Proofs.Heap.Slots

/-!
# Arrays and what their classes say

The class of an array of references says of which class its elements are.  `ArraysFit` says that
every array keeps to this, whatever class its elements were asked for by.  New classes and new
objects keep it, and so does anything that leaves arrays alone (`Aside`): a class that inherits from
another one goes on doing so when classes are added.  A new array keeps it (`ArraysFit.withArray`)
and so does a write (`ArraysFit.setElement`), if what goes in is of the elements' class.
-/

namespace GuestBoundary

variable {H : Type}

/-! ## Names that start with a bracket -/

namespace Registry

variable {r r' : Registry} {k : Class} {c x : ClassId} {spec : ClassSpec}

/-- Only array classes are named like array classes. -/
def Bracketed (r : Registry) : Prop :=
  ∀ c, (r.nameOf c).toList.head? = some '[' → (r.get c).isArray = true

theorem Bracketed.push (h : r.Bracketed)
    (hk : k.name.toList.head? = some '[' → k.isArray = true) : (r.push k).2.Bracketed := by
  intro c hc
  rw [nameOf] at hc
  rcases get_push_cases r k c with ⟨-, hget⟩ | ⟨-, hget⟩ | hget
  · rw [hget] at hc ⊢
    exact h c hc
  · rw [hget] at hc ⊢
    exact hk hc
  · rw [hget] at hc
    exact absurd hc (by decide)

theorem Bracketed.arrayClass (h : r.Bracketed) (e : Component) :
    (r.arrayClass e).2.Bracketed := by
  unfold Registry.arrayClass
  split
  case h_1 => exact h
  case h_2 => exact h.push fun _ => rfl

/-- A class that is defined has the name that was asked for. -/
theorem name_of_define (h : r.define spec = .ok (c, r')) :
    ∃ k, r.push k = (c, r') ∧ k.name = spec.name := by
  unfold define at h
  cases hfind : r.find? spec.name with
  | some d =>
    rw [hfind] at h
    cases h
  | none =>
    rw [hfind] at h
    obtain ⟨superclass, -, h⟩ := except_bind_eq_ok.1 h
    obtain ⟨interfaces, -, h⟩ := except_bind_eq_ok.1 h
    obtain ⟨⟨fields, layout⟩, -, h⟩ := except_bind_eq_ok.1 h
    obtain ⟨⟨methods, vtable⟩, -, h⟩ := except_bind_eq_ok.1 h
    exact ⟨_, Except.ok.inj h, rfl⟩

theorem Bracketed.defineOrKeep (h : r.Bracketed) (hname : spec.name.toList.head? ≠ some '[') :
    (r.defineOrKeep spec).Bracketed := by
  unfold Registry.defineOrKeep
  split
  case h_1 c r' hdefine =>
    obtain ⟨k, hpush, hk⟩ := name_of_define hdefine
    obtain rfl : (r.push k).2 = r' := congrArg Prod.snd hpush
    exact h.push fun hhead => absurd (hk ▸ hhead) hname
  case h_2 => exact h

theorem Bracketed.definitions {specs : List ClassSpec} (h : r.Bracketed)
    (hnames : ∀ spec ∈ specs, spec.name.toList.head? ≠ some '[') :
    (specs.foldl Registry.defineOrKeep r).Bracketed := by
  induction specs generalizing r with
  | nil => exact h
  | cons spec specs ih =>
    obtain ⟨hspec, hspecs⟩ := List.forall_mem_cons.1 hnames
    exact ih (h.defineOrKeep hspec) hspecs

theorem bracketed_basic : basic.Bracketed := by
  have empty : Registry.empty.Bracketed := by
    intro c hc
    rw [nameOf, get_of_le (Nat.zero_le _)] at hc
    exact absurd hc (by decide)
  exact empty.definitions (by decide +kernel)

/-- The array class for references to `x` is there for these. -/
theorem Bracketed.element?_arrayClass (h : r.Bracketed) (reachable : r.Reachable)
    (hx : x.index < r.size) :
    ((r.arrayClass (.reference x)).2.get (r.arrayClass (.reference x)).1).element? = some x := by
  have known : ∀ y, Component.reference x = .reference y → y.index < r.size := by
    intro y hy
    cases hy
    exact hx
  refine element?_eq_some_iff.2 ((reachable.component?_arrayClass_iff known).2 fun d _ hd => ?_)
  refine h d ?_
  rw [hd, toList_arrayName]
  rfl

end Registry

namespace World

variable {w w' w'' : World H} {c : ClassId} {o v : ObjectRef} {object : Object}
  {items : List (Option ObjectRef)} {i : Nat}

/-! ## The invariant -/

/-- The class that the elements of an array of references are of. -/
def elementClass? (w : World H) (o : ObjectRef) : Option ClassId :=
  (w.registry.get (w.classOf o)).element?

/-- An array of references has a class that says what its elements are, and they are instances of
that; the class of any other array says nothing of the sort. -/
structure Fits (w : World H) (object : Object) : Prop where
  references : ∀ items, object.elements? = some (.references items) →
    ∃ c, (w.registry.get object.classId).element? = some c ∧
      ∀ v, some v ∈ items → w.isInstance v c = true
  primitive : ∀ p bytes, object.elements? = some (.primitive p bytes) →
    (w.registry.get object.classId).element? = none

/-- Every array holds what its class says. -/
structure ArraysFit (w : World H) : Prop where
  reachable : w.registry.Reachable
  bracketed : w.registry.Bracketed
  /-- Objects are of classes that are there. -/
  known : ∀ o, o.index < w.heap.size → (w.classOf o).index < w.registry.size
  /-- And they stand for such classes. -/
  mirrors : ∀ o c, (w.object o).mirrored? = some c → c.index < w.registry.size
  fits : ∀ o, w.Fits (w.object o)

theorem object_of_size_le (h : w.heap.size ≤ o.index) : w.object o = default := by
  rw [World.object, Heap.get, Array.getElem?_eq_none h]
  rfl

theorem Fits.of_elements?_eq_none (h : object.elements? = none) : w.Fits object := by
  constructor
  · intro items he
    cases h.symm.trans he
  · intro p bytes he
    cases h.symm.trans he

/-- What matters of an object are its class and its elements. -/
theorem Fits.congr {object' : Object} (h : w.Fits object)
    (hclass : object'.classId = object.classId)
    (helements : object'.elements? = object.elements?) : w.Fits object' := by
  constructor
  · rw [hclass, helements]
    exact h.references
  · rw [hclass, helements]
    exact h.primitive

/-! ## Growth -/

/-- The second state has the classes and the objects of the first one, and each object is of its
class. -/
structure Grown (w w' : World H) : Prop where
  reachable : w'.registry.Reachable
  registry : w.registry.Extends w'.registry
  heap : w.heap.Grows w'.heap

/-- An instance stays an instance.  A reference to an object that is not there counts as one to an
instance of the root, so it is an instance of the root only, which is above every class. -/
theorem Grown.isInstance (g : Grown w w') (h : w.ArraysFit) (hc : c.index < w.registry.size)
    (hv : w.isInstance v c = true) : w'.isInstance v c = true := by
  have ordered := g.reachable.ordered
  have made := g.reachable.arraysMade
  by_cases hlt : v.index < w.heap.size
  · have hclass : w'.classOf v = w.classOf v := g.heap.classId_eq v hlt
    rw [World.isInstance, hclass, g.registry.isSubclass_eq h.reachable.ordered
      h.reachable.arraysMade ordered made (h.known v hlt) hc]
    exact hv
  · have hclass : w.classOf v = CoreClass.object.id :=
      congrArg Object.classId (object_of_size_le (Nat.not_lt.1 hlt))
    rw [World.isInstance, hclass, h.reachable.isSubclass_root_iff] at hv
    rw [World.isInstance, Registry.isSubclass_iff ordered made, g.registry.get_eq c hc]
    exact .inl hv

theorem Grown.fits (g : Grown w w') (h : w.ArraysFit)
    (hclass : object.classId.index < w.registry.size) (hfits : w.Fits object) : w'.Fits object := by
  constructor
  · intro items he
    obtain ⟨c, hc, hitems⟩ := hfits.references items he
    have hknown : c.index < w.registry.size :=
      Nat.lt_trans (h.reachable.arraysMade.element_lt hc) hclass
    rw [g.registry.get_eq _ hclass]
    exact ⟨c, hc, fun v hv => g.isInstance h hknown (hitems v hv)⟩
  · intro p bytes he
    rw [g.registry.get_eq _ hclass]
    exact hfits.primitive p bytes he

/-- An array that is as it was still fits. -/
theorem Grown.fits_of_elements?_eq (g : Grown w w') (h : w.ArraysFit)
    (he : (w'.object o).elements? = (w.object o).elements?) : w'.Fits (w'.object o) := by
  by_cases ho : o.index < w.heap.size
  · exact (g.fits h (h.known o ho) (h.fits o)).congr (g.heap.classId_eq o ho) he
  · rw [object_of_size_le (Nat.not_lt.1 ho)] at he
    exact .of_elements?_eq_none he

/-! ## What leaves arrays alone -/

/-- Classes and objects may come, and all arrays are as they were. -/
structure Aside (w w' : World H) : Prop extends Grown w w' where
  bracketed : w'.registry.Bracketed
  known : ∀ o, o.index < w'.heap.size → (w'.classOf o).index < w'.registry.size
  mirrors : ∀ o c, (w'.object o).mirrored? = some c → c.index < w'.registry.size
  elements : ∀ o, (w'.object o).elements? = (w.object o).elements?

theorem ArraysFit.aside (h : w.ArraysFit) (a : Aside w w') : w'.ArraysFit where
  reachable := a.reachable
  bracketed := a.bracketed
  known := a.known
  mirrors := a.mirrors
  fits o := a.fits_of_elements?_eq h (a.elements o)

theorem Aside.trans (a : Aside w w') (a' : Aside w' w'') : Aside w w'' where
  reachable := a'.reachable
  registry := a.registry.trans a'.registry
  heap := a.heap.trans a'.heap
  bracketed := a'.bracketed
  known := a'.known
  mirrors := a'.mirrors
  elements o := (a'.elements o).trans (a.elements o)

/-- Nothing but classes and objects matters. -/
theorem ArraysFit.aside_of_eq (h : w.ArraysFit) (hregistry : w'.registry = w.registry)
    (hheap : w'.heap = w.heap) : Aside w w' := by
  have hobject : w'.object = w.object := by
    funext o
    rw [World.object, hheap]
    rfl
  constructor
  case toGrown =>
    exact ⟨hregistry ▸ h.reachable, hregistry ▸ .refl _, hheap ▸ .refl _⟩
  case bracketed => exact hregistry ▸ h.bracketed
  case known =>
    rw [hheap, hregistry]
    simp only [classOf, hobject]
    exact h.known
  case mirrors =>
    rw [hobject, hregistry]
    exact h.mirrors
  case elements =>
    rw [hobject]
    exact fun _ => rfl

/-- The new object is the last one. -/
theorem object_newObject_cases (w : World H) (c : ClassId) (body : ObjectBody) (o : ObjectRef) :
    (o.index ≠ w.heap.size ∧ (w.newObject c body).2.object o = w.object o) ∨
      o = ⟨w.heap.size⟩ ∧ (w.newObject c body).2.object o = ⟨c, body, .free⟩ := by
  rcases Nat.lt_trichotomy o.index w.heap.size with ho | ho | ho
  · exact .inl ⟨Nat.ne_of_lt ho, Heap.get_push_of_lt ho⟩
  · obtain rfl : o = ⟨w.heap.size⟩ := by rw [← ho]
    exact .inr ⟨rfl, Heap.get_push_self w.heap _⟩
  · refine .inl ⟨Nat.ne_of_gt ho, ?_⟩
    have hsize : (w.newObject c body).2.heap.size ≤ o.index := by
      rw [show (w.newObject c body).2.heap.size = w.heap.size + 1 from Heap.size_push _ _]
      exact ho
    rw [object_of_size_le hsize, object_of_size_le (Nat.le_of_lt ho)]

theorem ArraysFit.grown_newObject (h : w.ArraysFit) (c : ClassId) (body : ObjectBody) :
    Grown w (w.newObject c body).2 := ⟨h.reachable, .refl _, .push _ _⟩

theorem ArraysFit.known_newObject (h : w.ArraysFit) (hc : c.index < w.registry.size)
    (body : ObjectBody) (o : ObjectRef) (ho : o.index < (w.newObject c body).2.heap.size) :
    ((w.newObject c body).2.classOf o).index < w.registry.size := by
  have hsize : (w.newObject c body).2.heap.size = w.heap.size + 1 := Heap.size_push _ _
  rw [hsize] at ho
  rcases w.object_newObject_cases c body o with ⟨hne, hobject⟩ | ⟨-, hobject⟩
  · rw [classOf, hobject]
    exact h.known o (by omega)
  · rw [classOf, hobject]
    exact hc

theorem ArraysFit.mirrors_newObject (h : w.ArraysFit) {body : ObjectBody}
    (hbody : ∀ d, body = .mirror d → d.index < w.registry.size) (o : ObjectRef) (d : ClassId)
    (hd : ((w.newObject c body).2.object o).mirrored? = some d) : d.index < w.registry.size := by
  rcases w.object_newObject_cases c body o with ⟨-, hobject⟩ | ⟨-, hobject⟩
  · rw [hobject] at hd
    exact h.mirrors o d hd
  · rw [hobject, Object.mirrored?] at hd
    refine hbody d ?_
    cases body <;> cases hd
    rfl

/-- An object that is no array may come. -/
theorem ArraysFit.aside_newObject (h : w.ArraysFit) (hc : c.index < w.registry.size)
    {body : ObjectBody} (hbody : ∀ e, body ≠ .array e)
    (hmirror : ∀ d, body = .mirror d → d.index < w.registry.size) :
    Aside w (w.newObject c body).2 where
  toGrown := h.grown_newObject c body
  bracketed := h.bracketed
  known := h.known_newObject hc body
  mirrors := h.mirrors_newObject hmirror
  elements o := by
    rcases w.object_newObject_cases c body o with ⟨-, hobject⟩ | ⟨ho, hobject⟩
    · rw [hobject]
    · rw [hobject, object_of_size_le (Nat.le_of_eq (congrArg ObjectRef.index ho).symm)]
      show Object.elements? _ = none
      unfold Object.elements?
      split
      case h_1 e he => exact absurd he (hbody e)
      case h_2 => rfl

theorem ArraysFit.aside_newInstance (h : w.ArraysFit) (hc : c.index < w.registry.size) :
    Aside w (w.newInstance c).2 := h.aside_newObject hc nofun nofun

/-- The fields of an object are no elements. -/
theorem ArraysFit.aside_setField (h : w.ArraysFit) {f : FieldRef} {u : Value}
    (hset : w.setField? o f u = some w') : Aside w w' := by
  have hlt := lt_size_of_setField? hset
  obtain ⟨values, hbody, -, -, rfl⟩ := setField?_eq_some_iff.1 hset
  let object : Object := { w.object o with body := .slots (values.set (w.registry.field f).slot u) }
  have hobject : ∀ o', (w.setObject o object).object o' = w.object o' ∨
      (w.setObject o object).object o' = object ∧ o = o' := by
    intro o'
    by_cases ho : o = o'
    · subst ho
      exact .inr ⟨object_setObject_self hlt object, rfl⟩
    · exact .inl (object_setObject_of_ne ho object)
  constructor
  case toGrown => exact ⟨h.reachable, .refl _, .set _ rfl⟩
  case bracketed => exact h.bracketed
  case known =>
    intro o' ho'
    have hlt' : o'.index < w.heap.size := Nat.lt_of_lt_of_eq ho' (Heap.size_set ..)
    rcases hobject o' with hsame | ⟨hnew, rfl⟩
    · exact lt_of_eq_of_lt (congrArg (fun x => x.classId.index) hsame) (h.known o' hlt')
    · exact lt_of_eq_of_lt (congrArg (fun x => x.classId.index) hnew) (h.known o hlt)
  case mirrors =>
    intro o' d hd
    rcases hobject o' with hsame | ⟨hnew, -⟩
    · exact h.mirrors o' d ((congrArg Object.mirrored? hsame).symm.trans hd)
    · exact nomatch (congrArg Object.mirrored? hnew).symm.trans hd
  case elements =>
    intro o'
    rcases hobject o' with hsame | ⟨hnew, rfl⟩
    · exact congrArg Object.elements? hsame
    · refine (congrArg Object.elements? hnew).trans ?_
      rw [Object.elements?, Object.elements?, hbody]

/-- The throwable of a fault is no array, and neither is its message. -/
theorem ArraysFit.aside_raised (h : w.ArraysFit) (fault : GuestFault) :
    Aside w (w.raised fault) := by
  obtain ⟨c, hfind, hc, -⟩ := h.reachable.messageSlot fault.kind
  have hclass : (w.registry.find? fault.kind.className).getD CoreClass.throwable.id = c := by
    rw [hfind, Option.getD_some]
  have hstring : CoreClass.string.id.index < w.registry.size := by
    refine Nat.lt_of_lt_of_le ?_ h.reachable.basic_extends.size_le
    rw [Registry.size_basic]
    decide
  let made := (w.newInstance c).2
  let named := (made.newString (Text.units fault.message)).2
  have a₁ : Aside w made := h.aside_newInstance hc
  have h₁ := h.aside a₁
  have a₂ : Aside made named := h₁.aside_newObject hstring nofun nofun
  have h₂ := h₁.aside a₂
  have a₃ : Aside named (named.setMessage ⟨w.heap.size⟩ (.ofObject ⟨made.heap.size⟩)) := by
    unfold setMessage
    cases hset : (named.registry.findField? (named.classOf ⟨w.heap.size⟩) messageField
        messageDescriptor).bind fun f => named.setField? ⟨w.heap.size⟩ f
          (.ofObject ⟨made.heap.size⟩) with
    | none => exact h₂.aside_of_eq rfl rfl
    | some w' =>
      obtain ⟨f, -, hset⟩ := Option.bind_eq_some_iff.1 hset
      exact h₂.aside_setField hset
  have hraised : w.raised fault =
      (named.setMessage ⟨w.heap.size⟩ (.ofObject ⟨made.heap.size⟩)).setPending ⟨w.heap.size⟩ := by
    rw [raised, materialize, hclass]
    rfl
  rw [hraised]
  exact ((a₁.trans a₂).trans a₃).trans ((h₂.aside a₃).aside_of_eq rfl rfl)

/-! ## Arrays of references -/

/-- An array of references to instances of `c` comes, with its class if that is not there yet. -/
def withArray (w : World H) (c : ClassId) (items : List (Option ObjectRef)) : World H :=
  ((w.withRegistry (w.registry.arrayClass (.reference c)).2).newObject
    (w.registry.arrayClass (.reference c)).1 (.array (.references items))).2

theorem ArraysFit.aside_arrayClass (h : w.ArraysFit) (hc : c.index < w.registry.size) :
    Aside w (w.withRegistry (w.registry.arrayClass (.reference c)).2) where
  reachable := h.reachable.arrayClass fun x hx => by cases hx; exact hc
  registry := Registry.extends_arrayClass _ _
  heap := .refl _
  bracketed := h.bracketed.arrayClass _
  known o ho := Nat.lt_of_lt_of_le (h.known o ho) (Registry.extends_arrayClass _ _).size_le
  mirrors o d hd := Nat.lt_of_lt_of_le (h.mirrors o d hd) (Registry.extends_arrayClass _ _).size_le
  elements _ := rfl

theorem ArraysFit.withArray (h : w.ArraysFit) (hc : c.index < w.registry.size)
    (hitems : ∀ v, some v ∈ items → w.isInstance v c = true) :
    (w.withArray c items).ArraysFit := by
  let a := w.registry.arrayClass (.reference c)
  have aside := h.aside_arrayClass hc
  have h₁ := h.aside aside
  have hlt : a.1.index < a.2.size := Registry.lt_size_of_arrayClass _
  have hfits : (w.withRegistry a.2).Fits ⟨a.1, .array (.references items), .free⟩ := by
    refine ⟨fun items' he => ?_, nofun⟩
    cases he
    exact ⟨c, h.bracketed.element?_arrayClass h.reachable hc, fun v hv =>
      aside.isInstance h hc (hitems v hv)⟩
  have grown := h₁.grown_newObject a.1 (.array (.references items))
  constructor
  case reachable => exact h₁.reachable
  case bracketed => exact h₁.bracketed
  case known => exact h₁.known_newObject hlt _
  case mirrors => exact h₁.mirrors_newObject nofun
  case fits =>
    intro o
    rcases (w.withRegistry a.2).object_newObject_cases a.1 (.array (.references items)) o with
      ⟨-, hobject⟩ | ⟨-, hobject⟩
    · exact grown.fits_of_elements?_eq h₁ (congrArg Object.elements? hobject)
    · refine (grown.fits h₁ hlt hfits).congr ?_ ?_
      · exact congrArg Object.classId hobject
      · exact congrArg Object.elements? hobject

/-- An element of an array is replaced. -/
def setElement (w : World H) (o : ObjectRef) (items : List (Option ObjectRef)) (i : Nat)
    (x : Option ObjectRef) : World H :=
  w.setObject o { w.object o with body := .array (.references (items.set i x)) }

section SetElement

variable (ho : (w.object o).elements? = some (.references items))
include ho

theorem lt_size_of_elements? : o.index < w.heap.size := by
  refine Nat.lt_of_not_le fun hle => ?_
  rw [object_of_size_le hle] at ho
  cases ho

theorem object_setElement_self (i : Nat) (x : Option ObjectRef) :
    (w.setElement o items i x).object o =
      { w.object o with body := .array (.references (items.set i x)) } :=
  object_setObject_self (lt_size_of_elements? ho) _

omit ho in
theorem object_setElement_of_ne {o' : ObjectRef} (hne : o' ≠ o) (i : Nat) (x : Option ObjectRef) :
    (w.setElement o items i x).object o' = w.object o' := object_setObject_of_ne hne.symm _

/-- No object changes its class. -/
theorem classOf_setElement (i : Nat) (x : Option ObjectRef) (o' : ObjectRef) :
    (w.setElement o items i x).classOf o' = w.classOf o' := by
  by_cases hne : o' = o
  · rw [classOf, hne, object_setElement_self ho]
    rfl
  · rw [classOf, object_setElement_of_ne hne]
    rfl

theorem ArraysFit.setElement (h : w.ArraysFit) (hclass : w.elementClass? o = some c)
    {x : Option ObjectRef} (hx : ∀ v, x = some v → w.isInstance v c = true) :
    (w.setElement o items i x).ArraysFit := by
  have hsame : ∀ d v, (w.setElement o items i x).isInstance v d = w.isInstance v d := fun d v =>
    congrArg (w.registry.isSubclass · d) (classOf_setElement ho i x v)
  have grown : Grown w (w.setElement o items i x) := ⟨h.reachable, .refl _, .set _ rfl⟩
  have hself := object_setElement_self ho i x
  constructor
  case reachable => exact h.reachable
  case bracketed => exact h.bracketed
  case known =>
    intro o' ho'
    rw [classOf_setElement ho]
    exact h.known o' (Nat.lt_of_lt_of_eq ho' (Heap.size_set ..))
  case mirrors =>
    intro o' d hd
    by_cases hne : o' = o
    · rw [hne, hself] at hd
      cases hd
    · rw [object_setElement_of_ne hne] at hd
      exact h.mirrors o' d hd
  case fits =>
    intro o'
    by_cases hne : o' = o
    · subst hne
      rw [hself]
      refine ⟨fun items' he => ?_, nofun⟩
      cases he
      obtain ⟨c', hc', hitems⟩ := (h.fits o').references items ho
      obtain rfl : c' = c := Option.some.inj (hc'.symm.trans hclass)
      refine ⟨c', hc', fun v hv => ?_⟩
      rw [hsame]
      rcases List.mem_or_eq_of_mem_set hv with hold | hnew
      · exact hitems v hold
      · exact hx v hnew.symm
    · exact grown.fits_of_elements?_eq h
        (congrArg Object.elements? (object_setElement_of_ne hne _ _))

end SetElement

/-! ## Where runs start -/

theorem heap_defineOrKeep (w : World H) (spec : ClassSpec) :
    (w.defineOrKeep spec).heap = w.heap := by
  unfold World.defineOrKeep World.define
  cases w.registry.define spec with
  | ok p => rfl
  | error e => rfl

/-- A class may be defined that is not named like an array class. -/
theorem ArraysFit.aside_defineOrKeep (h : w.ArraysFit) {spec : ClassSpec}
    (sort : ∀ e, spec.sort ≠ .array e) (name : spec.name.toList.head? ≠ some '[') :
    Aside w (w.defineOrKeep spec) := by
  have hregistry := Registry.registry_defineOrKeep w spec
  have hheap := w.heap_defineOrKeep spec
  have grows : w.registry.Extends (w.defineOrKeep spec).registry :=
    hregistry ▸ .defineOrKeep _ _
  have hobject : (w.defineOrKeep spec).object = w.object := by
    funext o
    rw [World.object, hheap]
    rfl
  constructor
  case toGrown => exact ⟨hregistry ▸ h.reachable.defineOrKeep sort, grows, hheap ▸ .refl _⟩
  case bracketed => exact hregistry ▸ h.bracketed.defineOrKeep name
  case known =>
    intro o ho
    rw [hheap] at ho
    rw [classOf, hobject]
    exact Nat.lt_of_lt_of_le (h.known o ho) grows.size_le
  case mirrors =>
    intro o d hd
    rw [hobject] at hd
    exact Nat.lt_of_lt_of_le (h.mirrors o d hd) grows.size_le
  case elements =>
    intro o
    rw [hobject]

/-- A run starts with no arrays at all. -/
theorem arraysFit_start (maxCallDepth : Nat) (memory : HostMemory) (host : H) :
    (start maxCallDepth memory host).ArraysFit := by
  have hregistry := Registry.registry_start maxCallDepth memory host
  have hheap : ∀ (specs : List ClassSpec) (w : World H),
      (specs.foldl defineOrKeep w).heap = w.heap := by
    intro specs
    induction specs with
    | nil => exact fun _ => rfl
    | cons spec specs ih => exact fun w => (ih _).trans (w.heap_defineOrKeep spec)
  have hempty : ∀ o, (start maxCallDepth memory host).object o = default := by
    intro o
    refine object_of_size_le ?_
    rw [start, hheap]
    exact Nat.zero_le _
  constructor
  case reachable => exact hregistry ▸ .basic
  case bracketed => exact hregistry ▸ Registry.bracketed_basic
  case known =>
    intro o ho
    rw [start, hheap] at ho
    exact absurd ho (Nat.not_lt_zero _)
  case mirrors =>
    intro o d hd
    rw [hempty] at hd
    cases hd
  case fits =>
    intro o
    rw [hempty]
    exact .of_elements?_eq_none rfl

end World

end GuestBoundary
