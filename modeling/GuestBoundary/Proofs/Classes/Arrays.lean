import GuestBoundary.Guest.Allocation
import GuestBoundary.Proofs.Classes.Names

/-!
# Array classes and their names

An array class is named after its elements (`arrayName`), and the name is read back when a class is
looked up (`findChars`).  Both go through one registry of names.  Different elements have different
names (`Reachable.arrayName_injective`) and reading a name back leads to the elements
(`Reachable.findClass_arrayName`), so an array class is found by its name.  Definitions write to the
registry as well: the only thing that goes wrong is that the name was given to a class of another
sort before (`array_names_faithful_iff`).
-/

namespace GuestBoundary.Registry

variable {H : Type} {r r' : Registry} {a c d : ClassId} {k : Class} {e e' : Component}

/-! ## What array classes look like -/

/-- The class has elements as given: it is named after them, it extends the class above all others
and nothing else, and the elements are of a class that was there before. -/
structure IsArrayOf (r : Registry) (c : ClassId) (e : Component) : Prop where
  name : r.nameOf c = r.arrayName e
  superclass : (r.get c).superclass = some CoreClass.object.id
  interfaces : (r.get c).interfaces = []
  earlier : ∀ x, e = .reference x → x.index < c.index

/-- Every class with elements was made for them. -/
def ArraysMade (r : Registry) : Prop := ∀ c e, (r.get c).component? = some e → r.IsArrayOf c e

theorem component?_default : (default : Class).component? = none := rfl

theorem Extends.arrayName_eq (h : Extends r r')
    (known : ∀ x, e = .reference x → x.index < r.size) : r'.arrayName e = r.arrayName e := by
  cases e with
  | kind k => rfl
  | reference x => rw [arrayName, arrayName, nameOf, nameOf, h.get_eq x (known x rfl)]

/-- A class that is admitted and has elements is the array class of these. -/
theorem Admits.of_component? (h : r.Admits k) (he : k.component? = some e) :
    (k.name = r.arrayName e ∧ k.superclass = some CoreClass.object.id ∧ k.interfaces = []) ∧
      ∀ x, e = .reference x → x.index < r.size := by
  cases h with
  | @defined spec _ _ _ _ _ _ sort =>
    -- what is described is no array class
    unfold Class.component? at he
    split at he
    case h_1 elements hsort => exact absurd hsort (sort elements)
    case h_2 => cases he
  | array _ _ known =>
    cases he
    exact ⟨⟨rfl, rfl, rfl⟩, known⟩

theorem ArraysMade.push (h : r.ArraysMade) (hk : r.Admits k) : (r.push k).2.ArraysMade := by
  have grows : Extends r (r.push k).2 := extends_push hk.founds
  intro c e he
  rcases get_push_cases r k c with ⟨hc, hget⟩ | ⟨rfl, hget⟩ | hget
  · rw [hget] at he
    obtain ⟨hname, hsuper, hinterfaces, hearlier⟩ := h c e he
    have hknown : ∀ x, e = .reference x → x.index < r.size := fun x hx =>
      Nat.lt_trans (hearlier x hx) hc
    refine ⟨?_, by rw [hget, hsuper], by rw [hget, hinterfaces], hearlier⟩
    rw [grows.arrayName_eq hknown, nameOf, hget, ← hname, nameOf]
  · rw [hget] at he
    obtain ⟨⟨hname, hsuper, hinterfaces⟩, hknown⟩ := hk.of_component? he
    refine ⟨?_, by rw [hget, hsuper], by rw [hget, hinterfaces], hknown⟩
    rw [grows.arrayName_eq hknown, nameOf, hget, hname]
  · rw [hget, component?_default] at he
    cases he

theorem Reachable.arraysMade (h : r.Reachable) : r.ArraysMade :=
  h.induction (P := ArraysMade) (fun _ _ => nofun) fun _ _ => ArraysMade.push

theorem lt_size_of_component? (he : (r.get c).component? = some e) : c.index < r.size := by
  refine Nat.lt_of_not_le fun hle => ?_
  rw [get_of_le hle, component?_default] at he
  cases he

/-- The elements of an array class are there. -/
theorem ArraysMade.known (h : r.ArraysMade) (he : (r.get c).component? = some e) (x : ClassId)
    (hx : e = .reference x) : x.index < r.size :=
  Nat.lt_trans ((h c e he).earlier x hx) (lt_size_of_component? he)

theorem element?_eq_some_iff {k : Class} {x : ClassId} :
    k.element? = some x ↔ k.component? = some (.reference x) := by
  unfold Class.element? Class.component?
  cases k.sort with
  | array e => cases e <;> simp
  | _ => simp

/-! ## The name of an array class -/

/-- What the name of an array class has behind the bracket. -/
def elementText (r : Registry) : Component → List Char
  | .kind k => [k.letter]
  | .reference x =>
    if (r.get x).isArray then (r.nameOf x).toList else 'L' :: (r.nameOf x).toList ++ [';']

theorem toList_arrayName (r : Registry) (e : Component) :
    (r.arrayName e).toList = '[' :: r.elementText e := by
  cases e with
  | kind k => simp [arrayName, elementText]
  | reference x =>
    rw [arrayName, elementText]
    split <;> simp

theorem arrayName_inj_iff : r.arrayName e = r.arrayName e' ↔ r.elementText e = r.elementText e' := by
  rw [← String.toList_inj, toList_arrayName, toList_arrayName, List.cons_inj_right]

/-- The name of an array class starts with a bracket. -/
theorem ArraysMade.head_nameOf (h : r.ArraysMade) (harray : (r.get c).isArray = true) :
    ∃ rest, (r.nameOf c).toList = '[' :: rest := by
  obtain ⟨e, he⟩ := Option.isSome_iff_exists.1 harray
  rw [(h c e he).name, toList_arrayName]
  exact ⟨_, rfl⟩

theorem letter_injective {k k' : Kind} (h : k.letter = k'.letter) : k = k' := by
  have hread := congrArg Kind.ofLetter? h
  rwa [Kind.ofLetter?_letter, Kind.ofLetter?_letter, Option.some_inj] at hread

theorem letter_ne_bracket (k : Kind) : k.letter ≠ '[' := by
  cases k with
  | primitive p => cases p <;> decide
  | object => decide
  | void => decide

/-- No kind is written like a class. -/
theorem ArraysMade.elementText_kind_ne (h : r.ArraysMade) (k : Kind) (x : ClassId) :
    r.elementText (.kind k) ≠ r.elementText (.reference x) := by
  rw [elementText, elementText]
  intro heq
  split at heq
  case isTrue harray =>
    obtain ⟨rest, hrest⟩ := h.head_nameOf harray
    rw [hrest] at heq
    exact letter_ne_bracket k (List.cons.inj heq).1
  case isFalse =>
    have := (List.cons.inj heq).2
    exact absurd this.symm (List.append_ne_nil_of_right_ne_nil _ (List.cons_ne_nil _ _))

/-- Different elements have different names. -/
theorem Reachable.arrayName_injective (h : r.Reachable)
    (known : ∀ x, e = .reference x → x.index < r.size)
    (known' : ∀ x, e' = .reference x → x.index < r.size)
    (hname : r.arrayName e = r.arrayName e') : e = e' := by
  have made := h.arraysMade
  have htext := arrayName_inj_iff.1 hname
  cases e with
  | kind k =>
    cases e' with
    | kind k' => exact congrArg _ (letter_injective (List.cons.inj htext).1)
    | reference y => exact absurd htext (made.elementText_kind_ne k y)
  | reference x =>
    cases e' with
    | kind k' => exact absurd htext.symm (made.elementText_kind_ne k' x)
    | reference y =>
      have hnames : (r.nameOf x).toList = (r.nameOf y).toList := by
        rw [elementText, elementText] at htext
        by_cases hx : (r.get x).isArray = true <;> by_cases hy : (r.get y).isArray = true
        · rwa [if_pos hx, if_pos hy] at htext
        · obtain ⟨rest, hrest⟩ := made.head_nameOf hx
          rw [if_pos hx, if_neg hy, hrest] at htext
          exact absurd (List.cons.inj htext).1 (by decide)
        · obtain ⟨rest, hrest⟩ := made.head_nameOf hy
          rw [if_neg hx, if_pos hy, hrest] at htext
          exact absurd (List.cons.inj htext).1 (by decide)
        · rw [if_neg hx, if_neg hy] at htext
          exact List.append_cancel_right (List.cons.inj htext).2
      rw [h.nameOf_injective (known x rfl) (known' y rfl) (String.toList_inj.1 hnames)]

/-! ## Asking for an array class -/

theorem find?_nameOf (h : r.Reachable) (hc : c.index < r.size) : r.find? (r.nameOf c) = some c := by
  cases hfind : r.find? (r.nameOf c) with
  | none => exact absurd rfl (nameOf_ne_of_find?_eq_none hfind hc)
  | some d =>
    rw [h.nameOf_injective (lt_size_of_find? hfind) hc (nameOf_of_find? hfind)]

/-- The class that answers has the name of the array class. -/
theorem nameOf_arrayClass (r : Registry) (e : Component) :
    (r.arrayClass e).2.nameOf (r.arrayClass e).1 = r.arrayName e := by
  unfold arrayClass
  split
  case h_1 c hfind => exact nameOf_of_find? hfind
  case h_2 => exact congrArg Class.name get_push_self

/-- The answer is an array class with these elements unless the name belongs to another class. -/
theorem Reachable.component?_arrayClass_iff (h : r.Reachable)
    (known : ∀ x, e = .reference x → x.index < r.size) :
    ((r.arrayClass e).2.get (r.arrayClass e).1).component? = some e ↔
      ∀ d, d.index < r.size → r.nameOf d = r.arrayName e → (r.get d).isArray = true := by
  have made := h.arraysMade
  unfold Registry.arrayClass
  split
  case h_1 c hfind =>
    have hc := lt_size_of_find? hfind
    have hname := nameOf_of_find? hfind
    constructor
    · intro he d hd hsame
      obtain rfl := h.nameOf_injective hc hd (hname.trans hsame.symm)
      exact Option.isSome_of_mem he
    · intro hall
      obtain ⟨e', he'⟩ := Option.isSome_iff_exists.1 (hall c hc hname)
      have hsame : r.arrayName e' = r.arrayName e := (made c e' he').name.symm.trans hname
      rw [← h.arrayName_injective (made.known he') known hsame]
      exact he'
  case h_2 hfresh =>
    refine iff_of_true ?_ fun d hd hsame => ?_
    · exact congrArg Class.component? get_push_self
    · exact absurd hsame (nameOf_ne_of_find?_eq_none hfresh hd)

/-- Looking the name of a class up finds the class. -/
theorem Reachable.findClass_nameOf (h : r.Reachable) (hc : c.index < r.size) :
    r.findClass (r.nameOf c) = .ok (c, r) := by
  rw [Registry.findClass, Registry.findChars, String.ofList_toList, find?_nameOf h hc]

/-- Reading the name of an array class leads to the array class, whether or not it is there. -/
theorem Reachable.findClass_arrayName (h : r.Reachable)
    (known : ∀ x, e = .reference x → x.index < r.size) (nameable : ∀ k, e = .kind k → k.isPrimitive) :
    r.findClass (r.arrayName e) = .ok (r.arrayClass e) := by
  rw [Registry.findClass, Registry.findChars, String.ofList_toList]
  split
  case h_1 c hfind => rw [Registry.arrayClass, hfind]
  case h_2 =>
    cases e with
    | kind k =>
      cases k with
      | primitive p =>
        rw [toList_arrayName, elementText]
        cases p <;> rfl
      | object => exact absurd (nameable _ rfl) (by decide)
      | void => exact absurd (nameable _ rfl) (by decide)
    | reference x =>
      have hfound : r.findChars (r.nameOf x).toList = .ok (x, r) := h.findClass_nameOf (known x rfl)
      rw [toList_arrayName, elementText]
      by_cases harray : (r.get x).isArray = true
      · obtain ⟨rest, hrest⟩ := h.arraysMade.head_nameOf harray
        rw [hrest] at hfound
        rw [if_pos harray, hrest]
        simp only [namedElements?, hfound]
      · rw [if_neg harray, List.cons_append]
        simp only [namedElements?, List.getLast?_concat, if_true, List.dropLast_concat, hfound]

/-- Different elements have different array classes. -/
theorem Reachable.arrayClass_injective (h : r.Reachable)
    (known : ∀ x, e = .reference x → x.index < r.size)
    (known' : ∀ x, e' = .reference x → x.index < (r.arrayClass e).2.size)
    (hsame : ((r.arrayClass e).2.arrayClass e').1 = (r.arrayClass e).1) : e' = e := by
  have grows := extends_arrayClass r e
  have hlt := (h.of_arrayClass_eq known rfl).2
  have hname : (r.arrayClass e).2.arrayName e' = (r.arrayClass e).2.arrayName e :=
    calc (r.arrayClass e).2.arrayName e'
      _ = ((r.arrayClass e).2.arrayClass e').2.nameOf (r.arrayClass e).1 := by
        rw [← hsame, nameOf_arrayClass]
      _ = (r.arrayClass e).2.nameOf (r.arrayClass e).1 :=
        congrArg Class.name ((extends_arrayClass _ e').get_eq _ hlt)
      _ = (r.arrayClass e).2.arrayName e := by
        rw [nameOf_arrayClass, grows.arrayName_eq known]
  refine (h.arrayClass known).arrayName_injective known' (fun x hx => ?_) hname
  exact Nat.lt_of_lt_of_le (known x hx) grows.size_le

/-! ## Looking a name up that stands for nothing -/

/-- Looking a name up, with the registry that is left behind also where it fails. -/
def lookUp (r : Registry) (cs : List Char) : Except GuestFault ClassId × Registry :=
  match r.find? (String.ofList cs) with
  | some c => (.ok c, r)
  | none =>
    match namedElements? cs with
    | some (.primitive p) => (r.arrayClass (.kind p)).map .ok id
    | some (.reference name _shorter) =>
      match r.lookUp name with
      | (.ok c, r) => (r.arrayClass (.reference c)).map .ok id
      | (.error fault, r) => (.error fault, r)
    | none => (.error ⟨.noClassDefFound, String.ofList cs⟩, r)
termination_by cs.length
decreasing_by exact _shorter

/-- A look-up that fails has added no array class on its way: the elements are looked up before
their array class is added. -/
theorem lookUp_eq (r : Registry) (cs : List Char) :
    r.lookUp cs = match r.findChars cs with
      | .ok (c, r') => (.ok c, r')
      | .error fault => (.error fault, r) := by
  induction hn : cs.length using Nat.strongRecOn generalizing cs with
  | _ n ih =>
    rw [lookUp, findChars]
    cases hfind : r.find? (String.ofList cs) with
    | some c => rfl
    | none =>
      cases hnamed : namedElements? cs with
      | none => rfl
      | some elements =>
        cases elements with
        | primitive p => rfl
        | reference name shorter =>
          dsimp only
          rw [ih _ (hn ▸ shorter) name rfl]
          cases r.findChars name with
          | ok p => rfl
          | error fault => rfl

theorem eq_of_lookUp_error {cs : List Char} {fault : GuestFault}
    (h : r.lookUp cs = (.error fault, r')) : r' = r := by
  rw [lookUp_eq] at h
  split at h
  case h_1 => cases h
  case h_2 => exact (Prod.mk.inj h).2.symm

/-- Making the throwable of a fault adds no class. -/
theorem registry_materialize (w : World H) (f : GuestFault) :
    (w.materialize f).2.registry = w.registry := by
  show ((World.newString _ _).2.setMessage _ _).registry = _
  unfold World.setMessage
  cases h : ((World.newString _ _).2.registry.findField? _ World.messageField
      World.messageDescriptor).bind ((World.newString _ _).2.setField? _ · _) with
  | none => rfl
  | some w' =>
    obtain ⟨f, -, hset⟩ := Option.bind_eq_some_iff.1 h
    obtain ⟨object, -, rfl⟩ := Option.map_eq_some_iff.1 hset
    rfl

/-- Guest code that looks a class up in vain is thrown a throwable and finds the classes as they
were. -/
theorem registry_of_findClass_error {name : String} {w w' : World H} {t : ObjectRef}
    (h : Guest.findClass name w = .error t w') : w'.registry = w.registry := by
  unfold Guest.findClass at h
  split at h
  case h_1 => cases h
  case h_2 fault _ =>
    cases h
    exact registry_materialize w fault

/-- The array class with given elements has them unless its name belongs to a class without
elements.  The class is found by its name, and was before it came about; other elements have another
array class.  Looking up in vain changes nothing. -/
theorem array_names_faithful_iff (h : r.Reachable) :
    (∀ e, (∀ x, e = .reference x → x.index < r.size) → ∀ a r', r.arrayClass e = (a, r') →
      ((r'.get a).component? = some e ↔
        ∀ d, d.index < r.size → r.nameOf d = r.arrayName e → (r.get d).isArray = true) ∧
      r'.nameOf a = r.arrayName e ∧ r'.findClass (r'.nameOf a) = .ok (a, r') ∧
      ((∀ k, e = .kind k → k.isPrimitive = true) → r.findClass (r.arrayName e) = .ok (a, r')) ∧
      ∀ e', (∀ x, e' = .reference x → x.index < r'.size) → (r'.arrayClass e').1 = a → e' = e) ∧
    (∀ name fault r', r.lookUp name = (.error fault, r') → r' = r) ∧
    ∀ name t (w w' : World H), w.registry = r → Guest.findClass name w = .error t w' →
      w'.registry = r := by
  refine ⟨?_, fun name fault r' => eq_of_lookUp_error, fun name t w w' hw hfind =>
    (registry_of_findClass_error hfind).trans hw⟩
  rintro e known a r' heq
  obtain ⟨hr', ha⟩ := h.of_arrayClass_eq known heq
  obtain ⟨rfl, rfl⟩ := Prod.mk.inj heq
  exact ⟨h.component?_arrayClass_iff known, nameOf_arrayClass r e, hr'.findClass_nameOf ha,
    h.findClass_arrayName known, fun e' known' => h.arrayClass_injective known known'⟩

/-- A class that is called like the array class of integers. -/
def shadowed : Registry :=
  basic.defineOrKeep ⟨"[I", .concrete, some "java/lang/Object", [], [], []⟩

theorem shadowed_reachable : shadowed.Reachable := Reachable.basic.defineOrKeep (by nofun)

theorem arrayClass_shadowed : shadowed.arrayClass (.kind Primitive.int) = (⟨28⟩, shadowed) := by
  have hfind : shadowed.find? (shadowed.arrayName (.kind Primitive.int)) = some ⟨28⟩ := by decide +kernel
  rw [arrayClass, hfind]

/-- The class that was defined answers, which has no elements. -/
theorem shadowed_integers :
    ((shadowed.get ⟨28⟩).component? = some (.kind Primitive.int) ↔
      ∀ d, d.index < shadowed.size → shadowed.nameOf d = shadowed.arrayName (.kind Primitive.int) →
        (shadowed.get d).isArray = true) ∧
      shadowed.findClass (shadowed.nameOf ⟨28⟩) = .ok (⟨28⟩, shadowed) := by
  have known : ∀ x, Component.kind Primitive.int = .reference x → x.index < shadowed.size := by
    intro x hx
    cases hx
  obtain ⟨hiff, -, hfind, -⟩ := (array_names_faithful_iff (H := Unit) shadowed_reachable).1 _ known
    _ _ arrayClass_shadowed
  exact ⟨hiff, hfind⟩

/-- Asked for the arrays of integers, the registry answers with a class that is no array class. -/
theorem shadowed_integers_not_array :
    shadowed.Reachable ∧
      ((shadowed.arrayClass (.kind Primitive.int)).2.get
        (shadowed.arrayClass (.kind Primitive.int)).1).component? ≠ some (.kind Primitive.int) := by
  refine ⟨shadowed_reachable, ?_⟩
  rw [arrayClass_shadowed]
  decide +kernel

end GuestBoundary.Registry
