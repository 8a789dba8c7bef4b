import GuestBoundary.Proofs.Classes.Layout
import Mathlib.Data.List.Forall2

/-!
# Descriptions that are refused

Fields and methods are read alike: one descriptor after the other, and no member may have the name
and the type of one in front of it (`readMembers`).  What is read holds what was described; what is
refused holds a descriptor that cannot be read or two members that are the same
(`MemberRefusal`).  A class is defined unless there is something wrong with its name, with what it
extends or implements, or with its members (`define_eq_error`, `Refusal.define_eq_error`).
-/

namespace GuestBoundary

/-! ## Members -/

section Members

variable {τ : Type} {parse : String → Except DescriptorError τ}
  {label : String → String → String} {before members : List (String × String)}
  {done read : List (String × τ)} {e : DefineError}

/-- Reads the descriptors of members, each given by its name and its descriptor; `done` are the
members in front, and `label` is how a member is called that was there before. -/
def readMembers [DecidableEq τ] (parse : String → Except DescriptorError τ)
    (label : String → String → String) (done : List (String × τ)) :
    List (String × String) → Except DefineError (List (String × τ))
  | [] => .ok done
  | (name, descriptor) :: members =>
    match parse descriptor with
    | .error cause => .error (.descriptor cause)
    | .ok type =>
      if (name, type) ∈ done then .error (.duplicateMember (label name descriptor))
      else readMembers parse label (done ++ [(name, type)]) members

/-- What can be wrong with members. -/
inductive MemberRefusal (parse : String → Except DescriptorError τ)
    (label : String → String → String) (members : List (String × String)) : DefineError → Prop where
  | descriptor {name descriptor : String} {cause : DescriptorError}
    (mem : (name, descriptor) ∈ members) (unread : parse descriptor = .error cause) :
    MemberRefusal parse label members (.descriptor cause)
  /-- A member has the name of one in front of it, and descriptors that say the same. -/
  | duplicate {i j : Nat} {name first second : String} {type : τ} (lt : i < j)
    (hi : members[i]? = some (name, first)) (hj : members[j]? = some (name, second))
    (read : parse first = .ok type) (again : parse second = .ok type) :
    MemberRefusal parse label members (.duplicateMember (label name second))

/-- The second list holds the names and the types of the members in the first one. -/
def ReadAs (parse : String → Except DescriptorError τ) (members : List (String × String))
    (read : List (String × τ)) : Prop :=
  List.Forall₂ (fun m t => t.1 = m.1 ∧ parse m.2 = .ok t.2) members read

theorem ReadAs.concat (h : ReadAs parse members read) {name descriptor : String} {type : τ}
    (hread : parse descriptor = .ok type) :
    ReadAs parse (members ++ [(name, descriptor)]) (read ++ [(name, type)]) :=
  List.rel_append h (.cons ⟨rfl, hread⟩ .nil)

/-- The member at a place is read into the type at that place. -/
theorem ReadAs.getElem? (h : ReadAs parse members read) {i : Nat} {name descriptor : String}
    (hi : members[i]? = some (name, descriptor)) :
    ∃ type, read[i]? = some (name, type) ∧ parse descriptor = .ok type := by
  obtain ⟨hlt, hi⟩ := List.getElem?_eq_some_iff.1 hi
  have hlt' : i < read.length := List.Forall₂.length_eq h ▸ hlt
  have hplace := List.Forall₂.get h hlt hlt'
  simp only [List.get_eq_getElem, hi] at hplace
  obtain ⟨hname, hread⟩ := hplace
  exact ⟨read[i].2, by rw [List.getElem?_eq_getElem hlt', ← hname], hread⟩

section Reading

variable [DecidableEq τ]

variable (parse label members) in
/-- What is read holds what was described, each member once; what is refused has a reason. -/
theorem readMembers_cases (h : ReadAs parse before done) (hnodup : done.Nodup) :
    (∃ read, readMembers parse label done members = .ok read ∧
      ReadAs parse (before ++ members) read ∧ read.Nodup) ∨
    ∃ e, readMembers parse label done members = .error e ∧
      MemberRefusal parse label (before ++ members) e := by
  induction members generalizing before done with
  | nil => exact .inl ⟨done, rfl, by rwa [List.append_nil], hnodup⟩
  | cons m members ih =>
    obtain ⟨name, descriptor⟩ := m
    have hplace : (before ++ (name, descriptor) :: members)[before.length]? =
        some (name, descriptor) := by
      rw [List.getElem?_append_right (Nat.le_refl _), Nat.sub_self]
      rfl
    rw [readMembers]
    cases hparse : parse descriptor with
    | error cause =>
      exact .inr ⟨_, rfl, .descriptor (List.mem_append_right _ List.mem_cons_self) hparse⟩
    | ok type =>
      dsimp only
      split
      case isTrue hmem =>
        obtain ⟨i, hi⟩ := List.getElem?_of_mem hmem
        have hlt : i < before.length := by
          rw [List.Forall₂.length_eq h]
          exact (List.getElem?_eq_some_iff.1 hi).1
        obtain ⟨first, hfirst⟩ : ∃ first, before[i]? = some first :=
          ⟨_, List.getElem?_eq_getElem hlt⟩
        obtain ⟨_, hsame, hread⟩ := h.getElem? hfirst
        cases hi.symm.trans hsame
        exact .inr ⟨_, rfl,
          .duplicate hlt ((List.getElem?_append_left hlt).trans hfirst) hplace hread hparse⟩
      case isFalse hnew =>
        have hconcat : (done ++ [(name, type)]).Nodup :=
          List.nodup_append.2 ⟨hnodup, List.nodup_singleton _, fun a ha b hb heq =>
            hnew (List.mem_singleton.1 hb ▸ heq ▸ ha)⟩
        have := ih (h.concat hparse) hconcat
        rwa [List.append_assoc, List.singleton_append] at this

theorem readMembers_eq_error (h : readMembers parse label [] members = .error e) :
    MemberRefusal parse label members e := by
  rcases readMembers_cases parse label members .nil List.nodup_nil with
    ⟨read, hok, -⟩ | ⟨e', herror, hrefusal⟩
  · cases h.symm.trans hok
  · cases h.symm.trans herror
    exact hrefusal

theorem readMembers_eq_ok (h : readMembers parse label [] members = .ok read) :
    ReadAs parse members read ∧ read.Nodup := by
  rcases readMembers_cases parse label members .nil List.nodup_nil with
    ⟨read', hok, hread⟩ | ⟨e', herror, -⟩
  · cases h.symm.trans hok
    exact hread
  · cases h.symm.trans herror

end Reading

/-- There is nothing wrong with members that were read. -/
theorem ReadAs.not_refusal (h : ReadAs parse members read) (hnodup : read.Nodup) :
    ¬ MemberRefusal parse label members e := by
  rintro (⟨hmem, hunread⟩ | ⟨hlt, hi, hj, hread, hagain⟩)
  · obtain ⟨i, hi⟩ := List.getElem?_of_mem hmem
    obtain ⟨type, -, hread⟩ := h.getElem? hi
    cases hunread.symm.trans hread
  · obtain ⟨_, hi, hread'⟩ := h.getElem? hi
    obtain ⟨_, hj, hagain'⟩ := h.getElem? hj
    cases hread.symm.trans hread'
    cases hagain.symm.trans hagain'
    have hplace := (List.getElem?_inj (List.getElem?_eq_some_iff.1 hi).1 hnodup).1
      (hi.trans hj.symm)
    omega

end Members

/-! ## Fields and methods -/

namespace Field

def signature (f : Field) : String × FieldType := (f.name, f.type)

end Field

namespace FieldSpec

/-- The name and the descriptor. -/
def member (f : FieldSpec) : String × String := (f.name, f.descriptor)

/-- How a field is called that was there before. -/
def label (name descriptor : String) : String := name ++ ":" ++ descriptor

end FieldSpec

namespace MethodSpec

/-- The name and the descriptor. -/
def member (m : MethodSpec) : String × String := (m.name, m.descriptor)

/-- How a method is called that was there before. -/
def label (name descriptor : String) : String := name ++ descriptor

end MethodSpec

namespace Registry

variable {r r' : Registry} {c : ClassId} {spec : ClassSpec} {e : DefineError}

/-- Giving slots to fields reads them. -/
theorem map_layFields (layout : List Kind) (statics : Nat) (done : List Field)
    (specs : List FieldSpec) :
    (layFields layout statics done specs).map (fun laid => laid.1.map Field.signature) =
      readMembers FieldType.parse FieldSpec.label (done.map Field.signature)
        (specs.map FieldSpec.member) := by
  induction specs generalizing layout statics done with
  | nil => rfl
  | cons spec specs ih =>
    rw [layFields, List.map_cons, FieldSpec.member, readMembers]
    cases FieldType.parse spec.descriptor with
    | error cause => rfl
    | ok type =>
      have hmem : (done.any fun f => f.name == spec.name && f.type == type) = true ↔
          (spec.name, type) ∈ done.map Field.signature := by
        simp [Field.signature]
      dsimp only
      by_cases hdone : (spec.name, type) ∈ done.map Field.signature
      · rw [if_pos (hmem.2 hdone), if_pos hdone]
        rfl
      · rw [if_neg (mt hmem.1 hdone), if_neg hdone]
        split
        all_goals
          rw [ih, List.map_append]
          rfl

/-- Giving places to methods reads them. -/
theorem map_layMethods (vtable : List MethodRef) (done : List Method) (specs : List MethodSpec) :
    (r.layMethods c vtable done specs).map (fun laid => laid.1.map Method.signature) =
      readMembers MethodType.parse MethodSpec.label (done.map Method.signature)
        (specs.map MethodSpec.member) := by
  induction specs generalizing vtable done with
  | nil => rfl
  | cons spec specs ih =>
    rw [layMethods, List.map_cons, MethodSpec.member, readMembers]
    cases MethodType.parse spec.descriptor with
    | error cause => rfl
    | ok type =>
      have hmem : (done.any fun m => m.name == spec.name && m.type == type) = true ↔
          (spec.name, type) ∈ done.map Method.signature := by
        simp [Method.signature]
      dsimp only
      by_cases hdone : (spec.name, type) ∈ done.map Method.signature
      · rw [if_pos (hmem.2 hdone), if_pos hdone]
        rfl
      · rw [if_neg (mt hmem.1 hdone), if_neg hdone]
        split
        all_goals
          rw [ih, List.map_append]
          rfl

theorem map_isStatic_of_layFields {layout layout' : List Kind} {statics : Nat}
    {done fields : List Field} {specs : List FieldSpec}
    (h : layFields layout statics done specs = .ok (fields, layout')) :
    fields.map Field.isStatic = done.map Field.isStatic ++ specs.map FieldSpec.isStatic := by
  induction specs generalizing layout statics done with
  | nil =>
    cases h
    exact (List.append_nil _).symm
  | cons spec specs ih =>
    obtain ⟨type, ⟨hstatic, hrest⟩ | ⟨hinstance, hrest⟩⟩ := layFields_cons_eq_ok h
    · simpa [hstatic] using ih hrest
    · simpa [hinstance] using ih hrest

/-! ## Classes -/

/-- What can be wrong with the description of a class. -/
inductive Refusal (r : Registry) (spec : ClassSpec) : DefineError → Prop where
  | duplicate {c : ClassId} (taken : r.find? spec.name = some c) :
    Refusal r spec (.duplicate spec.name)
  | unknownClass {name : String} (mem : spec.superclass = some name ∨ name ∈ spec.interfaces)
    (missing : r.find? name = none) : Refusal r spec (.unknownClass name)
  | field {e : DefineError} (refused : MemberRefusal FieldType.parse FieldSpec.label
      (spec.fields.map FieldSpec.member) e) : Refusal r spec e
  | method {e : DefineError} (refused : MemberRefusal MethodType.parse MethodSpec.label
      (spec.methods.map MethodSpec.member) e) : Refusal r spec e

theorem except_bind_eq_error {ε α β : Type} {x : Except ε α} {f : α → Except ε β} {e : ε} :
    x >>= f = .error e ↔ x = .error e ∨ ∃ a, x = .ok a ∧ f a = .error e := by
  cases x with
  | ok a =>
    refine ⟨fun h => .inr ⟨a, rfl, h⟩, ?_⟩
    rintro (h | ⟨_, h, hf⟩)
    · cases h
    · cases h
      exact hf
  | error e' =>
    refine ⟨fun h => .inl (Except.error.inj h ▸ rfl), ?_⟩
    rintro (h | ⟨_, h, -⟩)
    · cases h
      rfl
    · cases h

theorem mapM_eq_error {ε α β : Type} {f : α → Except ε β} {as : List α} {e : ε}
    (h : as.mapM f = .error e) : ∃ a ∈ as, f a = .error e := by
  induction as with
  | nil => cases h
  | cons a as ih =>
    rw [List.mapM_cons] at h
    rcases except_bind_eq_error.1 h with ha | ⟨b, -, h⟩
    · exact ⟨a, List.mem_cons_self, ha⟩
    · rcases except_bind_eq_error.1 h with has | ⟨bs, -, h⟩
      · obtain ⟨x, hx, hfx⟩ := ih has
        exact ⟨x, List.mem_cons_of_mem a hx, hfx⟩
      · cases h

theorem exists_of_mapM_eq_ok {ε α β : Type} {f : α → Except ε β} {as : List α} {bs : List β}
    (h : as.mapM f = .ok bs) {a : α} (ha : a ∈ as) : ∃ b, f a = .ok b := by
  induction as generalizing bs with
  | nil => cases ha
  | cons x as ih =>
    rw [List.mapM_cons] at h
    obtain ⟨b, hb, h⟩ := except_bind_eq_ok.1 h
    obtain ⟨bs', hbs', -⟩ := except_bind_eq_ok.1 h
    rcases List.mem_cons.1 ha with rfl | ha
    · exact ⟨b, hb⟩
    · exact ih hbs' ha

/-- A class that has to be there is not. -/
theorem unknownClass_of_known {name : String} (h : r.known name = .error e)
    (hname : spec.superclass = some name ∨ name ∈ spec.interfaces) : r.Refusal spec e := by
  unfold known at h
  split at h
  case h_1 => cases h
  case h_2 hmissing =>
    cases h
    exact .unknownClass hname hmissing

theorem find?_ne_none_of_known {name : String} (h : r.known name = .ok c) :
    r.find? name ≠ none := by
  unfold known at h
  split at h
  case h_1 hfound =>
    rw [hfound]
    exact Option.some_ne_none _
  case h_2 => cases h

/-- What a definition that succeeds adds: the class that was described. -/
structure Definition (r : Registry) (spec : ClassSpec) (c : ClassId) (r' : Registry) : Prop where
  place : c = ⟨r.size⟩
  size : r'.size = r.size + 1
  kept : ∀ d, d.index < r.size → r'.get d = r.get d
  fresh : r.find? spec.name = none
  name : (r'.get c).name = spec.name
  superclass : spec.superclass.mapM r.known = .ok (r'.get c).superclass
  interfaces : spec.interfaces.mapM r.known = .ok (r'.get c).interfaces
  fields : layFields (r.inheritedLayout (r'.get c).superclass) 0 [] spec.fields =
    .ok ((r'.get c).fields, (r'.get c).layout)
  methods : r.layMethods c (r.inherited (r'.get c).superclass) [] spec.methods =
    .ok ((r'.get c).methods, (r'.get c).vtable)

theorem Definition.of_push {k : Class} (hpush : r.push k = (c, r'))
    (fresh : r.find? spec.name = none) (name : k.name = spec.name)
    (superclass : spec.superclass.mapM r.known = .ok k.superclass)
    (interfaces : spec.interfaces.mapM r.known = .ok k.interfaces)
    (fields : layFields (r.inheritedLayout k.superclass) 0 [] spec.fields =
      .ok (k.fields, k.layout))
    (methods : r.layMethods ⟨r.size⟩ (r.inherited k.superclass) [] spec.methods =
      .ok (k.methods, k.vtable)) : r.Definition spec c r' := by
  obtain ⟨rfl, rfl⟩ := Prod.mk.inj hpush
  have hself : (r.push k).2.get ⟨r.size⟩ = k := get_push_self
  have hget : (r.push k).2.get ⟨r.classes.size⟩ = k := hself
  constructor
  case place => rfl
  case size => exact size_push r k
  case kept => exact fun d hd => get_push_of_lt hd
  case fresh => exact fresh
  all_goals
    dsimp only [push] at hget ⊢
    rw [hget]
    assumption

theorem definition_of_define (h : r.define spec = .ok (c, r')) : r.Definition spec c r' := by
  unfold define at h
  cases fresh : r.find? spec.name with
  | some d =>
    rw [fresh] at h
    cases h
  | none =>
    rw [fresh] at h
    obtain ⟨superclass, hextends, h⟩ := except_bind_eq_ok.1 h
    obtain ⟨interfaces, himplements, h⟩ := except_bind_eq_ok.1 h
    obtain ⟨⟨fields, layout⟩, hfields, h⟩ := except_bind_eq_ok.1 h
    obtain ⟨⟨methods, vtable⟩, hmethods, h⟩ := except_bind_eq_ok.1 h
    exact .of_push (Except.ok.inj h) fresh rfl hextends himplements hfields hmethods

/-- A definition is refused for a reason. -/
theorem refusal_of_define (h : r.define spec = .error e) : r.Refusal spec e := by
  unfold define at h
  cases fresh : r.find? spec.name with
  | some c =>
    rw [fresh] at h
    cases h
    exact .duplicate fresh
  | none =>
    rw [fresh] at h
    rcases except_bind_eq_error.1 h with hextends | ⟨superclass, -, h⟩
    · cases hs : spec.superclass with
      | none =>
        rw [hs] at hextends
        cases hextends
      | some name =>
        rw [hs] at hextends
        rcases except_bind_eq_error.1 hextends with hknown | ⟨c, -, h⟩
        · exact unknownClass_of_known hknown (.inl hs)
        · cases h
    rcases except_bind_eq_error.1 h with himplements | ⟨interfaces, -, h⟩
    · obtain ⟨name, hname, hknown⟩ := mapM_eq_error himplements
      exact unknownClass_of_known hknown (.inr hname)
    rcases except_bind_eq_error.1 h with hfields | ⟨⟨fields, layout⟩, -, h⟩
    · have hread := map_layFields (((superclass.map r.get).map Class.layout).getD []) 0 []
        spec.fields
      rw [hfields] at hread
      exact .field (readMembers_eq_error hread.symm)
    rcases except_bind_eq_error.1 h with hmethods | ⟨⟨methods, vtable⟩, -, h⟩
    · have hread := map_layMethods (r := r) (c := ⟨r.size⟩)
        (((superclass.map r.get).map Class.vtable).getD []) [] spec.methods
      rw [hmethods] at hread
      exact .method (readMembers_eq_error hread.symm)
    · cases h

/-- The fields of a class are the ones that were described, each once. -/
theorem Definition.readAs_fields (h : r.Definition spec c r') :
    ReadAs FieldType.parse (spec.fields.map FieldSpec.member)
        ((r'.get c).fields.map Field.signature) ∧
      ((r'.get c).fields.map Field.signature).Nodup := by
  have hread := map_layFields (r.inheritedLayout (r'.get c).superclass) 0 [] spec.fields
  rw [h.fields] at hread
  exact readMembers_eq_ok hread.symm

theorem Definition.readAs_methods (h : r.Definition spec c r') :
    ReadAs MethodType.parse (spec.methods.map MethodSpec.member)
        ((r'.get c).methods.map Method.signature) ∧
      ((r'.get c).methods.map Method.signature).Nodup := by
  have hread := map_layMethods (r := r) (c := c) (r.inherited (r'.get c).superclass) [] spec.methods
  rw [h.methods] at hread
  exact readMembers_eq_ok hread.symm

/-- Where there is a reason, a definition is refused. -/
theorem Refusal.define_eq_error (h : r.Refusal spec e) : ∃ e', r.define spec = .error e' := by
  cases hdefine : r.define spec with
  | error e' => exact ⟨e', rfl⟩
  | ok defined =>
    have d : r.Definition spec defined.1 defined.2 := definition_of_define hdefine
    exfalso
    cases h with
    | duplicate taken => cases taken.symm.trans d.fresh
    | unknownClass mem missing =>
      rcases mem with hs | hi
      · have hextends := d.superclass
        rw [hs] at hextends
        obtain ⟨c, hknown, -⟩ := except_bind_eq_ok.1 hextends
        exact find?_ne_none_of_known hknown missing
      · obtain ⟨c, hknown⟩ := exists_of_mapM_eq_ok d.interfaces hi
        exact find?_ne_none_of_known hknown missing
    | field refused => exact d.readAs_fields.1.not_refusal d.readAs_fields.2 refused
    | method refused => exact d.readAs_methods.1.not_refusal d.readAs_methods.2 refused

end Registry

end GuestBoundary
