import GuestBoundary.Proofs.Classes.Arrays

/-!
# The subtype relation

`IsSubtype` is the relation that is declared: the least order that has the superclasses and the
interfaces of every class above it, the root above everything, and an array of references below
another one where their elements are so.  `isSubclass` decides it (`isSubclass_iff_isSubtype`).
The proofs go by the order of definition: what a class extends, implements or has elements of was
there before it (`Ordered`, `IsArrayOf.earlier`), so every question about a class is answered by
questions about earlier ones (`wellFounded_asks`).
-/

namespace GuestBoundary.Registry

variable {r : Registry} {a b c p s x y : ClassId} {k : Class}

/-! ## Classes that a class names -/

/-- What a class extends and implements. -/
def parents (r : Registry) (c : ClassId) : List ClassId :=
  (r.get c).superclass.toList ++ (r.get c).interfaces

/-- What a class extends and implements was there before, and its methods are looked for in itself
and then where these look for theirs. -/
structure Ordered (r : Registry) : Prop where
  earlier : ∀ c, ∀ p ∈ r.parents c, p.index < c.index
  methodOrder : ∀ c, c.index < r.size →
    (r.get c).methodOrder = c :: (r.parents c).flatMap fun p => (r.get p).methodOrder

theorem mem_of_mapM_eq_ok {ε α β : Type} {f : α → Except ε β} {as : List α} {bs : List β}
    (h : as.mapM f = .ok bs) {b : β} (hb : b ∈ bs) : ∃ a ∈ as, f a = .ok b := by
  induction as generalizing bs with
  | nil =>
    cases h
    cases hb
  | cons a as ih =>
    rw [List.mapM_cons] at h
    obtain ⟨b', hb', h⟩ := except_bind_eq_ok.1 h
    obtain ⟨bs', hbs', h⟩ := except_bind_eq_ok.1 h
    cases h
    rcases List.mem_cons.1 hb with rfl | hb
    · exact ⟨a, List.mem_cons_self, hb'⟩
    · obtain ⟨a', ha', hf⟩ := ih hbs' hb
      exact ⟨a', List.mem_cons_of_mem _ ha', hf⟩

/-- The interfaces of a class that is admitted are there. -/
theorem Admits.interface_lt (h : r.Admits k) {i : ClassId} (hi : i ∈ k.interfaces) :
    i.index < r.size := by
  cases h with
  | defined _ _ _ himplements =>
    obtain ⟨name, -, hknown⟩ := mem_of_mapM_eq_ok himplements hi
    exact lt_size_of_known hknown
  | array => cases hi

theorem Admits.parent_lt (h : r.Admits k) (hp : p ∈ k.superclass.toList ++ k.interfaces) :
    p.index < r.size := by
  rcases List.mem_append.1 hp with hp | hp
  · exact h.superclass_lt (Option.mem_toList.1 hp)
  · exact h.interface_lt hp

theorem Admits.methodOrder_eq (h : r.Admits k) :
    k.methodOrder = ⟨r.size⟩ ::
      (k.superclass.toList ++ k.interfaces).flatMap fun p => (r.get p).methodOrder := by
  cases h with
  | @defined _ superclass =>
    cases superclass with
    | none => rfl
    | some s => simp
  | array => simp

theorem Ordered.push (h : r.Ordered) (hk : r.Admits k) : (r.push k).2.Ordered where
  earlier c p hp := by
    rw [parents] at hp
    rcases get_push_cases r k c with ⟨_, hget⟩ | ⟨rfl, hget⟩ | hget
    · rw [hget] at hp
      exact h.earlier c p hp
    · rw [hget] at hp
      exact hk.parent_lt hp
    · rw [hget] at hp
      cases hp
  methodOrder c hc := by
    have hold : ∀ ps : List ClassId, (∀ p ∈ ps, p.index < r.size) →
        (ps.flatMap fun p => ((r.push k).2.get p).methodOrder) =
          ps.flatMap fun p => (r.get p).methodOrder := fun ps hps =>
      List.flatMap_congr fun p hp => congrArg Class.methodOrder (get_push_of_lt (hps p hp))
    by_cases hlt : c.index < r.size
    · have hget : (r.push k).2.get c = r.get c := get_push_of_lt hlt
      have hparents : (r.push k).2.parents c = r.parents c := by rw [parents, hget, parents]
      rw [hget, hparents, hold _ fun p hp => Nat.lt_trans (h.earlier c p hp) hlt,
        h.methodOrder c hlt]
    · obtain rfl : c = ⟨r.size⟩ := by
        rw [size_push] at hc
        exact congrArg ClassId.mk (show c.index = r.size by omega)
      rw [parents, get_push_self, hold _ fun p hp => hk.parent_lt hp, hk.methodOrder_eq]

theorem Reachable.ordered (h : r.Reachable) : r.Ordered :=
  h.induction (P := Ordered) ⟨fun _ _ => nofun, fun _ hc => absurd hc (Nat.not_lt_zero _)⟩
    fun _ _ => Ordered.push

theorem Ordered.mem_methodOrder_iff (h : r.Ordered) (hc : c.index < r.size) :
    s ∈ (r.get c).methodOrder ↔ s = c ∨ ∃ p ∈ r.parents c, s ∈ (r.get p).methodOrder := by
  rw [h.methodOrder c hc, List.mem_cons, List.mem_flatMap]

theorem Ordered.le_of_mem_methodOrder (h : r.Ordered) (hs : s ∈ (r.get c).methodOrder) :
    s.index ≤ c.index := by
  induction hn : c.index using Nat.strongRecOn generalizing c with
  | _ n ih =>
    have hc : c.index < r.size := by
      refine Nat.lt_of_not_le fun hle => ?_
      rw [get_of_le hle] at hs
      cases hs
    rcases (h.mem_methodOrder_iff hc).1 hs with rfl | ⟨p, hp, hs⟩
    · omega
    · have hlt := h.earlier c p hp
      have := ih p.index (hn ▸ hlt) hs rfl
      omega

/-! ## The recursion -/

theorem ArraysMade.element_lt (h : r.ArraysMade) (hx : (r.get c).element? = some x) :
    x.index < c.index :=
  (h c _ (element?_eq_some_iff.1 hx)).earlier x rfl

theorem inheritsWithin_succ_iff {depth : Nat} :
    r.inheritsWithin (depth + 1) a b = true ↔ (r.get b).isRoot = true ∨
      ∃ s ∈ (r.get a).methodOrder, s = b ∨
        ∃ x y, (r.get s).element? = some x ∧ (r.get b).element? = some y ∧
          r.inheritsWithin depth x y = true := by
  rw [inheritsWithin, Bool.or_eq_true, List.any_eq_true]
  refine or_congr_right (exists_congr fun s => and_congr_right fun _ => ?_)
  rw [Bool.or_eq_true, beq_iff_eq]
  cases (r.get s).element? <;> cases (r.get b).element? <;> simp

/-- The bound on the levels of elements is never met. -/
theorem inheritsWithin_eq (ordered : r.Ordered) (made : r.ArraysMade) {depth depth' : Nat}
    (hd : a.index < depth) (hd' : a.index < depth') :
    r.inheritsWithin depth a b = r.inheritsWithin depth' a b := by
  induction depth generalizing a b depth' with
  | zero => omega
  | succ depth ih =>
    cases depth' with
    | zero => omega
    | succ depth' =>
      rw [Bool.eq_iff_iff, inheritsWithin_succ_iff, inheritsWithin_succ_iff]
      refine or_congr_right (exists_congr fun s => and_congr_right fun hs => or_congr_right ?_)
      refine exists_congr fun x => exists_congr fun y => and_congr_right fun hx => ?_
      have hle := ordered.le_of_mem_methodOrder hs
      have hlt := made.element_lt hx
      have heq : r.inheritsWithin depth x y = r.inheritsWithin depth' x y :=
        ih (by omega) (by omega)
      rw [heq]

/-- A class inherits from the root, from what methods are looked for in, and, where that has
elements, from the arrays of what these inherit from. -/
theorem isSubclass_iff (ordered : r.Ordered) (made : r.ArraysMade) :
    r.isSubclass a b = true ↔ (r.get b).isRoot = true ∨ ∃ s ∈ (r.get a).methodOrder, s = b ∨
      ∃ x y, (r.get s).element? = some x ∧ (r.get b).element? = some y ∧
        r.isSubclass x y = true := by
  rw [isSubclass, inheritsWithin_succ_iff]
  refine or_congr_right (exists_congr fun s => and_congr_right fun hs => or_congr_right ?_)
  refine exists_congr fun x => exists_congr fun y => and_congr_right fun hx => ?_
  have hle := ordered.le_of_mem_methodOrder hs
  have hlt := made.element_lt hx
  rw [isSubclass, inheritsWithin_eq ordered made (by omega) (Nat.lt_succ_self x.index)]

/-- A registry that grows keeps the relation between the classes that it had.  The induction is on
the first class, by way of its elements. -/
theorem Extends.isSubclass_eq {r' : Registry} (h : Extends r r') (ordered : r.Ordered)
    (made : r.ArraysMade) (ordered' : r'.Ordered) (made' : r'.ArraysMade) (ha : a.index < r.size)
    (hb : b.index < r.size) : r'.isSubclass a b = r.isSubclass a b := by
  induction hn : a.index using Nat.strongRecOn generalizing a b with
  | _ n ih =>
    rw [Bool.eq_iff_iff, isSubclass_iff ordered' made', isSubclass_iff ordered made,
      h.get_eq a ha, h.get_eq b hb]
    refine or_congr_right (exists_congr fun s => and_congr_right fun hs => or_congr_right ?_)
    have hle := ordered.le_of_mem_methodOrder hs
    rw [h.get_eq s (Nat.lt_of_le_of_lt hle ha)]
    refine exists_congr fun x => exists_congr fun y => and_congr_right fun hx =>
      and_congr_right fun hy => ?_
    have hxs := made.element_lt hx
    have hyb := made.element_lt hy
    rw [ih x.index (by omega) (by omega) (by omega) rfl]

/-- What a class that is there inherits from, in terms of earlier classes. -/
theorem isSubclass_iff_parents (ordered : r.Ordered) (made : r.ArraysMade) (ha : a.index < r.size) :
    r.isSubclass a b = true ↔ a = b ∨ (r.get b).isRoot = true ∨
      (∃ x y, (r.get a).element? = some x ∧ (r.get b).element? = some y ∧
        r.isSubclass x y = true) ∨
      ∃ p ∈ r.parents a, r.isSubclass p b = true := by
  rw [isSubclass_iff ordered made]
  constructor
  · rintro (hroot | ⟨s, hs, hsame⟩)
    · exact .inr (.inl hroot)
    · rcases (ordered.mem_methodOrder_iff ha).1 hs with rfl | ⟨p, hp, hs⟩
      · rcases hsame with rfl | helements
        · exact .inl rfl
        · exact .inr (.inr (.inl helements))
      · exact .inr (.inr (.inr ⟨p, hp, (isSubclass_iff ordered made).2 (.inr ⟨s, hs, hsame⟩)⟩))
  · have hself : a ∈ (r.get a).methodOrder := (ordered.mem_methodOrder_iff ha).2 (.inl rfl)
    rintro (rfl | hroot | helements | ⟨p, hp, hsub⟩)
    · exact .inr ⟨a, hself, .inl rfl⟩
    · exact .inl hroot
    · exact .inr ⟨a, hself, .inr helements⟩
    · refine ((isSubclass_iff ordered made).1 hsub).imp_right ?_
      rintro ⟨s, hs, hsame⟩
      exact ⟨s, (ordered.mem_methodOrder_iff ha).2 (.inr ⟨p, hp, hs⟩), hsame⟩

/-! ## The root -/

theorem Reachable.basic_extends (h : r.Reachable) : Registry.basic.Extends r := by
  have push : ∀ r k, Registry.basic.Extends r → r.Admits k →
      Registry.basic.Extends (r.push k).2 := fun r k hr hk =>
    hr.trans (extends_push hk.founds)
  induction h with
  | basic => exact .refl _
  | define _ sort h ih => exact of_define push sort h ih
  | arrayClass hr known ih => exact of_arrayClass push hr.size_pos known ih

/-- The root names no other class. -/
theorem Reachable.root (h : r.Reachable) :
    (r.get CoreClass.object.id).isRoot = true ∧ r.parents CoreClass.object.id = [] ∧
      (r.get CoreClass.object.id).element? = none := by
  have hget : r.get CoreClass.object.id = Registry.basic.get CoreClass.object.id :=
    h.basic_extends.get_eq _ (by rw [size_basic]; decide)
  rw [parents, hget]
  decide +kernel

theorem Reachable.isSubclass_root_iff (h : r.Reachable) :
    r.isSubclass CoreClass.object.id b = true ↔ (r.get b).isRoot = true := by
  obtain ⟨hroot, hparents, helement⟩ := h.root
  have hiff := isSubclass_iff_parents (b := b) h.ordered h.arraysMade
    (show CoreClass.object.id.index < r.size from h.size_pos)
  rw [hiff, hparents, helement]
  constructor
  · rintro (rfl | hb | ⟨_, _, hx, -⟩ | ⟨_, hp, -⟩)
    · exact hroot
    · exact hb
    · cases hx
    · cases hp
  · exact fun hb => .inr (.inl hb)

/-- All classes but the one above all others extend one. -/
def OneRoot (r : Registry) : Prop :=
  ∀ c, c.index < r.size → (r.get c).superclass = none →
    (r.get c).isInterface = true ∨ c = CoreClass.object.id

theorem OneRoot.eq_of_isRoot (one : r.OneRoot) (hb : b.index < r.size)
    (hroot : (r.get b).isRoot = true) : b = CoreClass.object.id := by
  rw [Class.isRoot, Bool.and_eq_true, Bool.and_eq_true] at hroot
  obtain ⟨⟨hnone, hinterface⟩, -⟩ := hroot
  refine (one b hb (Option.isNone_iff_eq_none.1 hnone)).resolve_left fun h => ?_
  rw [h] at hinterface
  cases hinterface

/-! ## The declared relation -/

/-- The least order in which a class is below what it extends and implements, everything below the
root, and arrays of references below each other as their elements are. -/
inductive IsSubtype (r : Registry) : ClassId → ClassId → Prop where
  | refl (c : ClassId) : IsSubtype r c c
  | trans {a b c : ClassId} (h : IsSubtype r a b) (h' : IsSubtype r b c) : IsSubtype r a c
  | superclass {c s : ClassId} (h : (r.get c).superclass = some s) : IsSubtype r c s
  | interface {c i : ClassId} (h : i ∈ (r.get c).interfaces) : IsSubtype r c i
  | root {c : ClassId} (hc : c.index < r.size) : IsSubtype r c CoreClass.object.id
  | covariant {a b x y : ClassId} (hx : (r.get a).element? = some x)
    (hy : (r.get b).element? = some y) (h : IsSubtype r x y) : IsSubtype r a b

theorem IsSubtype.of_parent (hp : p ∈ r.parents c) : r.IsSubtype c p :=
  (List.mem_append.1 hp).elim (fun h => .superclass (Option.mem_toList.1 h)) .interface

theorem ArraysMade.parents_eq (h : r.ArraysMade) (hx : (r.get c).element? = some x) :
    r.parents c = [CoreClass.object.id] := by
  have made := h c _ (element?_eq_some_iff.1 hx)
  rw [parents, made.superclass, made.interfaces]
  rfl

/-- Two array classes of one class are one class. -/
theorem Reachable.element?_injective (h : r.Reachable) (ha : (r.get a).element? = some x)
    (hb : (r.get b).element? = some x) : a = b := by
  have ha := element?_eq_some_iff.1 ha
  have hb := element?_eq_some_iff.1 hb
  refine h.nameOf_injective (lt_size_of_component? ha) (lt_size_of_component? hb) ?_
  rw [(h.arraysMade a _ ha).name, (h.arraysMade b _ hb).name]

section Order

variable (h : r.Reachable)
include h

theorem isSubclass_self (ha : a.index < r.size) : r.isSubclass a a = true :=
  (isSubclass_iff_parents h.ordered h.arraysMade ha).2 (.inl rfl)

theorem isSubclass_parent (ha : a.index < r.size) (hp : p ∈ r.parents a) :
    r.isSubclass a p = true :=
  (isSubclass_iff_parents h.ordered h.arraysMade ha).2 <| .inr <| .inr <| .inr
    ⟨p, hp, isSubclass_self h (Nat.lt_trans (h.ordered.earlier a p hp) ha)⟩

/-- The induction is on the first class: each way to be below `b` leads to an earlier one. -/
theorem isSubclass_trans (one : r.OneRoot) (ha : a.index < r.size) (hb : b.index < r.size)
    (hab : r.isSubclass a b = true) (hbc : r.isSubclass b c = true) :
    r.isSubclass a c = true := by
  induction hn : a.index using Nat.strongRecOn generalizing a b c with
  | _ n ih =>
    have hiff := isSubclass_iff_parents (b := c) h.ordered h.arraysMade ha
    -- what is above the root is above everything
    have habove : ∀ {d}, d = CoreClass.object.id → r.isSubclass d c = true →
        r.isSubclass a c = true := by
      rintro d rfl hd
      exact hiff.2 (.inr (.inl (h.isSubclass_root_iff.1 hd)))
    rcases (isSubclass_iff_parents h.ordered h.arraysMade ha).1 hab with
      rfl | hroot | ⟨x, y, hx, hy, hxy⟩ | ⟨p, hp, hpb⟩
    · exact hbc
    · exact habove (one.eq_of_isRoot hb hroot) hbc
    · have hxa := h.arraysMade.element_lt hx
      have hyb := h.arraysMade.element_lt hy
      rcases (isSubclass_iff_parents h.ordered h.arraysMade hb).1 hbc with
        rfl | hroot | ⟨y', z, hy', hz, hyz⟩ | ⟨p, hp, hpc⟩
      · exact hab
      · exact hiff.2 (.inr (.inl hroot))
      · obtain rfl := Option.some.inj (hy.symm.trans hy')
        have hxz := ih x.index (by omega) (by omega) (by omega) hxy hyz rfl
        exact hiff.2 (.inr (.inr (.inl ⟨x, z, hx, hz, hxz⟩)))
      · rw [h.arraysMade.parents_eq hy, List.mem_singleton] at hp
        exact habove hp hpc
    · have hpa := h.ordered.earlier a p hp
      have hpc := ih p.index (by omega) (by omega) hb hpb hbc rfl
      exact hiff.2 (.inr (.inr (.inr ⟨p, hp, hpc⟩)))

/-- The induction is on both classes together.  Two classes that are below each other cannot name
each other as parents, since parents are earlier. -/
theorem isSubclass_antisymm (one : r.OneRoot) (ha : a.index < r.size) (hb : b.index < r.size)
    (hab : r.isSubclass a b = true) (hba : r.isSubclass b a = true) : a = b := by
  induction hn : a.index + b.index using Nat.strongRecOn generalizing a b with
  | _ n ih =>
    obtain ⟨-, hparents, helement⟩ := h.root
    rcases (isSubclass_iff_parents h.ordered h.arraysMade ha).1 hab with
      hsame | hroot | ⟨x, y, hx, hy, hxy⟩ | ⟨p, hp, hpb⟩
    · exact hsame
    · obtain rfl := one.eq_of_isRoot hb hroot
      exact one.eq_of_isRoot ha (h.isSubclass_root_iff.1 hba)
    · have hxa := h.arraysMade.element_lt hx
      have hyb := h.arraysMade.element_lt hy
      have hnotRoot : (r.get a).isRoot = true → a = b := by
        intro hroot
        obtain rfl := one.eq_of_isRoot ha hroot
        rw [helement] at hx
        cases hx
      rcases (isSubclass_iff_parents h.ordered h.arraysMade hb).1 hba with
        hsame | hroot | ⟨y', x', hy', hx', hyx⟩ | ⟨q, hq, hqa⟩
      · exact hsame.symm
      · exact hnotRoot hroot
      · obtain rfl := Option.some.inj (hy.symm.trans hy')
        obtain rfl := Option.some.inj (hx.symm.trans hx')
        obtain rfl := ih (x.index + y.index) (by omega) (by omega) (by omega) hxy hyx rfl
        exact h.element?_injective hx hy
      · rw [h.arraysMade.parents_eq hy, List.mem_singleton] at hq
        subst hq
        exact hnotRoot (h.isSubclass_root_iff.1 hqa)
    · have hpa := h.ordered.earlier a p hp
      have hbp := isSubclass_trans h one hb ha hba (isSubclass_parent h ha hp)
      obtain rfl := ih (p.index + b.index) (by omega) (by omega) hb hpb hbp rfl
      -- so `b` is named by `a`; it remains that `a` is not below `b` in any way
      rcases (isSubclass_iff_parents h.ordered h.arraysMade hb).1 hba with
        hsame | hroot | ⟨y, x, hy, hx, -⟩ | ⟨q, hq, hqa⟩
      · exact hsame.symm
      · obtain rfl := one.eq_of_isRoot ha hroot
        rw [hparents] at hp
        cases hp
      · rw [h.arraysMade.parents_eq hx, List.mem_singleton] at hp
        subst hp
        rw [helement] at hy
        cases hy
      · have hqp := h.ordered.earlier p q hq
        have haq := isSubclass_trans h one ha hb hab (isSubclass_parent h hb hq)
        obtain rfl := ih (a.index + q.index) (by omega) ha (by omega) haq hqa rfl
        omega

/-- What is answered is declared. -/
theorem isSubtype_of_isSubclass (one : r.OneRoot) (ha : a.index < r.size) (hb : b.index < r.size)
    (hab : r.isSubclass a b = true) : r.IsSubtype a b := by
  induction hn : a.index using Nat.strongRecOn generalizing a b with
  | _ n ih =>
    rcases (isSubclass_iff_parents h.ordered h.arraysMade ha).1 hab with
      rfl | hroot | ⟨x, y, hx, hy, hxy⟩ | ⟨p, hp, hpb⟩
    · exact .refl a
    · rw [one.eq_of_isRoot hb hroot]
      exact .root ha
    · have hxa := h.arraysMade.element_lt hx
      have hyb := h.arraysMade.element_lt hy
      exact .covariant hx hy (ih x.index (by omega) (by omega) (by omega) hxy rfl)
    · have hpa := h.ordered.earlier a p hp
      exact (IsSubtype.of_parent hp).trans (ih p.index (by omega) (by omega) hb hpb rfl)

/-- What is declared is answered. -/
theorem isSubclass_of_isSubtype (one : r.OneRoot) (ha : a.index < r.size) (hab : r.IsSubtype a b) :
    b.index < r.size ∧ r.isSubclass a b = true := by
  have of_parent : ∀ {c p}, c.index < r.size → p ∈ r.parents c →
      p.index < r.size ∧ r.isSubclass c p = true := fun hc hp =>
    ⟨Nat.lt_trans (h.ordered.earlier _ _ hp) hc, isSubclass_parent h hc hp⟩
  induction hab with
  | refl c => exact ⟨ha, isSubclass_self h ha⟩
  | trans _ _ ih ih' =>
    obtain ⟨hb, hab⟩ := ih ha
    obtain ⟨hc, hbc⟩ := ih' hb
    exact ⟨hc, isSubclass_trans h one ha hb hab hbc⟩
  | superclass hs => exact of_parent ha (List.mem_append_left _ (Option.mem_toList.2 hs))
  | interface hi => exact of_parent ha (List.mem_append_right _ hi)
  | root =>
    exact ⟨h.size_pos, (isSubclass_iff_parents h.ordered h.arraysMade ha).2 (.inr (.inl h.root.1))⟩
  | covariant hx hy _ ih =>
    obtain ⟨-, hxy⟩ := ih (Nat.lt_trans (h.arraysMade.element_lt hx) ha)
    refine ⟨lt_size_of_component? (element?_eq_some_iff.1 hy), ?_⟩
    exact (isSubclass_iff_parents h.ordered h.arraysMade ha).2
      (.inr (.inr (.inl ⟨_, _, hx, hy, hxy⟩)))

theorem isSubclass_iff_isSubtype (one : r.OneRoot) (ha : a.index < r.size)
    (hb : b.index < r.size) : r.isSubclass a b = true ↔ r.IsSubtype a b :=
  ⟨isSubtype_of_isSubclass h one ha hb, fun hab => (isSubclass_of_isSubtype h one ha hab).2⟩

end Order

/-! ## The questions that are asked -/

/-- One step of answering whether `a` is below `b`, where `answer` answers the questions that come
up: two arrays of references are compared by their elements only, other classes by what `a` extends
and implements. -/
def subtypeStep (r : Registry) (answer : ClassId → ClassId → Bool) (a b : ClassId) : Bool :=
  if a = b then true
  else if (r.get b).isRoot then true
  else
    match (r.get a).element?, (r.get b).element? with
    | some x, some y => answer x y
    | _, _ => (r.parents a).any fun p => answer p b

/-- The first question may come up when the second one is answered. -/
inductive Asks (r : Registry) : ClassId × ClassId → ClassId × ClassId → Prop where
  | elements {a b x y : ClassId} (hx : (r.get a).element? = some x)
    (hy : (r.get b).element? = some y) : Asks r (x, y) (a, b)
  | parent {a b p : ClassId} (hp : p ∈ r.parents a) : Asks r (p, b) (a, b)

/-- Questions lead to questions about earlier classes, so there is an end to them. -/
theorem wellFounded_asks (h : r.Reachable) : WellFounded r.Asks := by
  have earlier : ∀ q q', r.Asks q q' → q.1.index < q'.1.index := by
    intro q q' hasks
    cases hasks with
    | elements hx _ => exact h.arraysMade.element_lt hx
    | parent hp => exact h.ordered.earlier _ _ hp
  exact Subrelation.wf (fun hasks => earlier _ _ hasks)
    (InvImage.wf (fun q : ClassId × ClassId => q.1.index) Nat.lt_wfRel.wf)

/-- Leaving out what arrays of references extend changes no answer: that is the root. -/
theorem isSubclass_eq_subtypeStep (h : r.Reachable) (ha : a.index < r.size) :
    r.isSubclass a b = r.subtypeStep r.isSubclass a b := by
  have hiff := isSubclass_iff_parents (b := b) h.ordered h.arraysMade ha
  rw [subtypeStep]
  split
  case isTrue hsame => exact hiff.2 (.inl hsame)
  case isFalse hne =>
    split
    case isTrue hroot => exact hiff.2 (.inr (.inl hroot))
    case isFalse hroot =>
      rw [or_iff_right hne, or_iff_right hroot] at hiff
      rw [Bool.eq_iff_iff, hiff]
      split
      case h_1 x y hx hy =>
        constructor
        · rintro (⟨x', y', hx', hy', hxy⟩ | ⟨p, hp, hpb⟩)
          · rwa [Option.some.inj (hx.symm.trans hx'), Option.some.inj (hy.symm.trans hy')]
          · rw [h.arraysMade.parents_eq hx, List.mem_singleton] at hp
            rw [hp] at hpb
            exact absurd (h.isSubclass_root_iff.1 hpb) hroot
        · exact fun hxy => .inl ⟨x, y, hx, hy, hxy⟩
      case h_2 hnone =>
        rw [List.any_eq_true]
        exact or_iff_right fun ⟨x, y, hx, hy, _⟩ => hnone x y hx hy

/-- The classes of a registry with one root are ordered as declared, and asking for the order comes
to an end. -/
theorem subtypes_are_declared (h : r.Reachable) (one : r.OneRoot) :
    (∀ a b, a.index < r.size → b.index < r.size →
      (r.isSubclass a b = true ↔ r.IsSubtype a b) ∧
      (r.isSubclass a b = true → r.isSubclass b a = true → a = b) ∧
      r.isSubclass a b = r.subtypeStep r.isSubclass a b) ∧
    WellFounded r.Asks :=
  ⟨fun _ _ ha hb => ⟨isSubclass_iff_isSubtype h one ha hb, isSubclass_antisymm h one ha hb,
    isSubclass_eq_subtypeStep h ha⟩, wellFounded_asks h⟩

/-- An interface, an interface that extends it and a class that implements the second one. -/
def units : Registry :=
  ((basic.defineOrKeep ⟨"Measured", .interface, none, [], [], []⟩).defineOrKeep
    ⟨"Unit", .interface, none, ["Measured"], [], []⟩).defineOrKeep
    ⟨"Tile", .concrete, some "java/lang/Object", ["Unit"], [], []⟩

/-- The arrays of the class and of the first interface are added. -/
def rows : Registry :=
  ((units.arrayClass (.reference ⟨30⟩)).2.arrayClass (.reference ⟨28⟩)).2

/-- The arrays of these arrays are added. -/
def tiles : Registry :=
  ((rows.arrayClass (.reference ⟨31⟩)).2.arrayClass (.reference ⟨32⟩)).2

theorem tiles_classes :
    units.size = 31 ∧ rows.size = 33 ∧ tiles.size = 35 ∧ tiles.isSubclass ⟨33⟩ ⟨34⟩ = true ∧
      ∀ i < tiles.size, (tiles.get ⟨i⟩).superclass = none →
        (tiles.get ⟨i⟩).isInterface = true ∨ (⟨i⟩ : ClassId) = CoreClass.object.id := by
  decide +kernel

theorem tiles_reachable : tiles.Reachable := by
  obtain ⟨hunits, hrows, -⟩ := tiles_classes
  have add : ∀ {r r₀ : Registry} {c : ClassId}, r.Reachable → Extends r₀ r → c.index < r₀.size →
      (r.arrayClass (.reference c)).2.Reachable := by
    intro r r₀ c hr hgrows hc
    refine hr.arrayClass fun x hx => ?_
    cases hx
    exact Nat.lt_of_lt_of_le hc hgrows.size_le
  have reachable_units : units.Reachable :=
    ((Reachable.basic.defineOrKeep (by nofun)).defineOrKeep (by nofun)).defineOrKeep (by nofun)
  have reachable_rows : rows.Reachable :=
    add (add reachable_units (.refl _) (by rw [hunits]; decide)) (extends_arrayClass units _)
      (by rw [hunits]; decide)
  exact add (add reachable_rows (.refl _) (by rw [hrows]; decide)) (extends_arrayClass rows _)
    (by rw [hrows]; decide)

theorem tiles_oneRoot : tiles.OneRoot := by
  obtain ⟨-, -, -, -, hall⟩ := tiles_classes
  exact fun c hc => hall c.index hc

/-- An array of arrays of the class is one of arrays of the interface, and not the other way
around. -/
theorem tiles_covariant : tiles.IsSubtype ⟨33⟩ ⟨34⟩ ∧ ¬ tiles.IsSubtype ⟨34⟩ ⟨33⟩ := by
  obtain ⟨-, -, hsize, hsub, -⟩ := tiles_classes
  have hfirst : (⟨33⟩ : ClassId).index < tiles.size := by rw [hsize]; decide
  have hsecond : (⟨34⟩ : ClassId).index < tiles.size := by rw [hsize]; decide
  have hordered := (subtypes_are_declared tiles_reachable tiles_oneRoot).1
  refine ⟨(hordered _ _ hfirst hsecond).1.1 hsub, fun hback => ?_⟩
  have hsame := (hordered _ _ hfirst hsecond).2.1 hsub ((hordered _ _ hsecond hfirst).1.2 hback)
  cases hsame

end GuestBoundary.Registry
