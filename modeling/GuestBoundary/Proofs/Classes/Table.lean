import GuestBoundary.Proofs.Classes.Registry
import Mathlib.Data.List.Nodup

/-!
# Tables of virtual methods

`chain` is the list of a class and all classes that it extends, and `nearest?` the first virtual
method with a signature that one of them declares.  The table of a class holds exactly the methods
that are nearest to it (`WellFormed.mem_vtable_iff`): a class that enters its methods puts each in
the place of the one that it overrides, and leaves the others where they are (`Laid`).
-/

namespace GuestBoundary

namespace Method

/-- What a method is named by. -/
def signature (m : Method) : String × MethodType := (m.name, m.type)

theorem sameSignature_iff {m n : Method} :
    m.sameSignature n = true ↔ m.signature = n.signature := by
  simp [sameSignature, signature]

end Method

namespace Registry

variable {r : Registry} {c d : ClassId} {k : Class} {n : MethodRef} {s : String × MethodType}

/-! ## Superclasses -/

/-- A class and the classes that it extends, `depth` of them at most. -/
def chainWithin (r : Registry) : Nat → ClassId → List ClassId
  | 0, _ => []
  | depth + 1, c => c :: ((r.get c).superclass.map (chainWithin r depth)).getD []

/-- A class and the classes that it extends, the nearest one first.  A superclass is defined before
its subclasses, so no class has more of them than its place in the registry. -/
def chain (r : Registry) (c : ClassId) : List ClassId := r.chainWithin (c.index + 1) c

/-- Superclasses are defined before their subclasses. -/
def Ranked (r : Registry) : Prop := ∀ c s, (r.get c).superclass = some s → s.index < c.index

theorem Ranked.chainWithin_eq (h : r.Ranked) {depth depth' : Nat} (hd : c.index < depth)
    (hd' : c.index < depth') : r.chainWithin depth c = r.chainWithin depth' c := by
  induction depth generalizing c depth' with
  | zero => omega
  | succ depth ih =>
    cases depth' with
    | zero => omega
    | succ depth' =>
      rw [chainWithin, chainWithin]
      cases hs : (r.get c).superclass with
      | none => rfl
      | some s =>
        have := h c s hs
        have hs' : s.index < depth := by omega
        have hs'' : s.index < depth' := by omega
        rw [Option.map_some, Option.map_some, ih hs' hs'']

theorem Ranked.chain_eq (h : r.Ranked) (c : ClassId) :
    r.chain c = c :: ((r.get c).superclass.map r.chain).getD [] := by
  rw [chain, chainWithin]
  cases hs : (r.get c).superclass with
  | none => rfl
  | some s =>
    have := h c s hs
    rw [Option.map_some, Option.map_some, chain, h.chainWithin_eq this (Nat.lt_succ_self _)]

theorem Ranked.le_of_mem_chainWithin (h : r.Ranked) {depth : Nat}
    (hd : d ∈ r.chainWithin depth c) : d.index ≤ c.index := by
  induction depth generalizing c with
  | zero => cases hd
  | succ depth ih =>
    rw [chainWithin, List.mem_cons] at hd
    rcases hd with rfl | hd
    · omega
    · cases hs : (r.get c).superclass with
      | none =>
        rw [hs] at hd
        cases hd
      | some s =>
        rw [hs] at hd
        have hlt := h c s hs
        have := ih hd
        omega

theorem Ranked.le_of_mem_chain (h : r.Ranked) (hd : d ∈ r.chain c) : d.index ≤ c.index :=
  h.le_of_mem_chainWithin hd

/-- A new class whose superclass is there keeps the order. -/
theorem Ranked.push (h : r.Ranked) (hk : ∀ s, k.superclass = some s → s.index < r.size) :
    (r.push k).2.Ranked := by
  intro c s hs
  rcases get_push_cases r k c with ⟨hc, hget⟩ | ⟨rfl, hget⟩ | hget
  · rw [hget] at hs
    exact h c s hs
  · rw [hget] at hs
    exact hk s hs
  · rw [hget] at hs
    cases hs

theorem Ranked.chain_push (h : r.Ranked) (hc : c.index < r.size) :
    (r.push k).2.chain c = r.chain c := by
  suffices ∀ depth, ∀ c : ClassId, c.index < r.size →
      (r.push k).2.chainWithin depth c = r.chainWithin depth c from this _ c hc
  intro depth
  induction depth with
  | zero => exact fun _ _ => rfl
  | succ depth ih =>
    intro c hc
    rw [chainWithin, chainWithin, get_push_of_lt hc]
    cases hs : (r.get c).superclass with
    | none => rfl
    | some s =>
      have := h c s hs
      rw [Option.map_some, Option.map_some, ih s (by omega)]

/-! ## The nearest method -/

/-- The virtual method with a signature that a class declares. -/
def declaredVirtual? (r : Registry) (c : ClassId) (s : String × MethodType) : Option MethodRef :=
  ((r.get c).methods.findIdx? fun m => m.isVirtual && m.signature == s).map (MethodRef.mk c)

/-- The virtual method with a signature that the nearest class of the chain declares. -/
def nearest? (r : Registry) (c : ClassId) (s : String × MethodType) : Option MethodRef :=
  (r.chain c).findSome? fun d => r.declaredVirtual? d s

/-- The class declares the method that the reference names. -/
def Declares (r : Registry) (c : ClassId) (n : MethodRef) : Prop :=
  n.owner = c ∧ n.index < (r.get c).methods.length

theorem Declares.getElem? (h : r.Declares c n) :
    (r.get c).methods[n.index]? = some (r.method n) := by
  obtain ⟨rfl, h⟩ := h
  rw [method, List.getElem?_eq_getElem h]
  rfl

/-- The place of a method that fits is that of a declared one. -/
theorem declares_of_findIdx? {fits : Method → Bool}
    (h : ((r.get c).methods.findIdx? fits).map (MethodRef.mk c) = some n) :
    r.Declares c n ∧ fits (r.method n) = true := by
  obtain ⟨i, hi, rfl⟩ := Option.map_eq_some_iff.1 h
  obtain ⟨hlt, hfits, -⟩ := List.findIdx?_eq_some_iff_getElem.1 hi
  have hdeclares : r.Declares c ⟨c, i⟩ := ⟨rfl, hlt⟩
  have hmethod := hdeclares.getElem?
  rw [List.getElem?_eq_getElem hlt] at hmethod
  rw [Option.some.inj hmethod] at hfits
  exact ⟨hdeclares, hfits⟩

/-- Two methods of one class with one signature are in one place. -/
theorem Declares.eq_of_signature_eq (hn : r.Declares c n)
    (h : ((r.get c).methods.map Method.signature).Nodup) {n' : MethodRef}
    (hn' : r.Declares c n') (hs : (r.method n).signature = (r.method n').signature) : n = n' := by
  have hplace : (((r.get c).methods.map Method.signature)[n.index]? : Option _) =
      ((r.get c).methods.map Method.signature)[n'.index]? := by
    rw [List.getElem?_map, List.getElem?_map, hn.getElem?, hn'.getElem?, Option.map_some,
      Option.map_some, hs]
  have hindex : n.index = n'.index := by
    refine (List.getElem?_inj ?_ h).1 hplace
    rw [List.length_map]
    exact hn.2
  obtain ⟨o, i⟩ := n
  obtain ⟨o', i'⟩ := n'
  obtain ⟨rfl, -⟩ := hn
  obtain ⟨rfl, -⟩ := hn'
  cases hindex
  rfl

theorem declaredVirtual?_eq_none_iff :
    r.declaredVirtual? c s = none ↔
      ∀ m ∈ (r.get c).methods, m.isVirtual = true → m.signature ≠ s := by
  simp [declaredVirtual?]

/-- What is found is declared. -/
theorem of_declaredVirtual? (h : r.declaredVirtual? c s = some n) :
    r.Declares c n ∧ (r.method n).isVirtual = true ∧ (r.method n).signature = s := by
  obtain ⟨hdeclares, hfits⟩ := declares_of_findIdx? h
  rw [Bool.and_eq_true, beq_iff_eq] at hfits
  exact ⟨hdeclares, hfits⟩

theorem declaredVirtual?_eq_some_iff (h : ((r.get c).methods.map Method.signature).Nodup) :
    r.declaredVirtual? c s = some n ↔
      r.Declares c n ∧ (r.method n).isVirtual = true ∧ (r.method n).signature = s := by
  refine ⟨of_declaredVirtual?, fun ⟨hdeclares, hvirtual, hs⟩ => ?_⟩
  cases hfound : r.declaredVirtual? c s with
  | none =>
    exact absurd hs (declaredVirtual?_eq_none_iff.1 hfound _
      (List.mem_of_getElem? hdeclares.getElem?) hvirtual)
  | some n' =>
    obtain ⟨hdeclares', -, hs'⟩ := of_declaredVirtual? hfound
    rw [hdeclares'.eq_of_signature_eq h hdeclares (hs'.trans hs.symm)]

theorem Ranked.nearest?_eq (h : r.Ranked) :
    r.nearest? c s =
      (r.declaredVirtual? c s).or ((r.get c).superclass.bind fun d => r.nearest? d s) := by
  rw [nearest?, h.chain_eq, List.findSome?_cons]
  cases r.declaredVirtual? c s with
  | some n => rfl
  | none => cases (r.get c).superclass <;> rfl

theorem of_nearest? (h : r.nearest? c s = some n) :
    n.owner ∈ r.chain c ∧ r.Declares n.owner n ∧ (r.method n).isVirtual = true ∧
      (r.method n).signature = s := by
  obtain ⟨d, hd, hn⟩ := List.exists_of_findSome?_eq_some h
  obtain ⟨hdeclares, hrest⟩ := of_declaredVirtual? hn
  obtain rfl := hdeclares.1
  exact ⟨hd, hdeclares, hrest⟩

theorem nearest?_eq_none_iff :
    r.nearest? c s = none ↔
      ∀ d ∈ r.chain c, ∀ m ∈ (r.get d).methods, m.isVirtual = true → m.signature ≠ s := by
  simp only [nearest?, List.findSome?_eq_none_iff, declaredVirtual?_eq_none_iff]

/-! ## How a class enters its methods -/

/-- The table of the class `c`, which declares `methods`, has the virtual ones among them, and what
it inherits unless one of them overrides it. -/
structure Laid (r : Registry) (c : ClassId) (inherited : List MethodRef) (methods : List Method)
    (vtable : List MethodRef) : Prop where
  distinct : (methods.map Method.signature).Nodup
  nodup : vtable.Nodup
  mem : ∀ n, n ∈ vtable ↔
    (n.owner = c ∧ ∃ m, methods[n.index]? = some m ∧ m.isVirtual = true) ∨
      (n ∈ inherited ∧ ∀ m ∈ methods, m.isVirtual = true → m.signature ≠ (r.method n).signature)

/-- What a class inherits: each method once, none of its own, and one of each signature. -/
structure Heritage (r : Registry) (c : ClassId) (inherited : List MethodRef) : Prop where
  nodup : inherited.Nodup
  other : ∀ n ∈ inherited, n.owner ≠ c
  single : ∀ n ∈ inherited, ∀ n' ∈ inherited,
    (r.method n).signature = (r.method n').signature → n = n'

section Place

variable {inherited vtable : List MethodRef} {methods : List Method} {m : Method}

theorem Laid.start (h : r.Heritage c inherited) : r.Laid c inherited [] inherited where
  distinct := List.nodup_nil
  nodup := h.nodup
  mem := fun n => by simp

theorem nodup_signature_concat (h : (methods.map Method.signature).Nodup)
    (hm : ∀ m' ∈ methods, m'.signature ≠ m.signature) :
    ((methods ++ [m]).map Method.signature).Nodup := by
  rw [List.map_append, List.map_singleton, List.nodup_append]
  refine ⟨h, List.nodup_singleton _, ?_⟩
  rintro s hs t ht rfl
  obtain ⟨m', hm', hs⟩ := List.mem_map.1 hs
  exact hm m' hm' (hs.trans (List.mem_singleton.1 ht))

theorem getElem?_concat_eq_some_iff {α : Type} {l : List α} {a b : α} {i : Nat} :
    (l ++ [a])[i]? = some b ↔ l[i]? = some b ∨ (i = l.length ∧ b = a) := by
  rcases Nat.lt_trichotomy i l.length with h | h | h
  · rw [List.getElem?_append_left h]
    exact ⟨.inl, fun h' => h'.resolve_right fun h' => by omega⟩
  · subst h
    simp [eq_comm]
  · rw [List.getElem?_eq_none (by rw [List.length_append]; exact h),
      List.getElem?_eq_none (by omega)]
    exact ⟨nofun, fun h' => h'.elim nofun fun h' => by omega⟩

/-- A method that is not virtual stays out of the table. -/
theorem Laid.skip (h : r.Laid c inherited methods vtable) (m : Method)
    (hm : ∀ m' ∈ methods, m'.signature ≠ m.signature) (hvirtual : m.isVirtual = false) :
    r.Laid c inherited (methods ++ [m]) vtable where
  distinct := nodup_signature_concat h.distinct hm
  nodup := h.nodup
  mem := fun n => by
    rw [h.mem n]
    refine or_congr (and_congr_right fun _ => ?_) (and_congr_right fun _ => ?_)
    · simp only [getElem?_concat_eq_some_iff]
      constructor
      · rintro ⟨m', hm', hv⟩
        exact ⟨m', .inl hm', hv⟩
      · rintro ⟨m', hm' | ⟨-, rfl⟩, hv⟩
        · exact ⟨m', hm', hv⟩
        · rw [hvirtual] at hv
          cases hv
    · rw [List.forall_mem_append, List.forall_mem_singleton, hvirtual]
      exact ⟨fun h => ⟨h, nofun⟩, And.left⟩

theorem mem_set_iff_of_nodup {α : Type} {l : List α} (h : l.Nodup) {i : Nat} (hi : i < l.length)
    {a b : α} : a ∈ l.set i b ↔ a = b ∨ (a ∈ l ∧ a ≠ l[i]) := by
  have hl : l = l.take i ++ l[i] :: l.drop (i + 1) := by
    rw [← List.drop_eq_getElem_cons hi, List.take_append_drop]
  have hmem : a ∈ l ↔ a ∈ l.take i ∨ a = l[i] ∨ a ∈ l.drop (i + 1) := by
    rw [← List.mem_cons, ← List.mem_append, ← hl]
  have hout : l[i] ∉ l.take i ∧ l[i] ∉ l.drop (i + 1) := by
    rw [hl, List.nodup_middle, List.nodup_cons, List.mem_append, not_or] at h
    exact h.1
  rw [List.set_eq_take_append_cons_drop, if_pos hi, hmem]
  simp only [List.mem_append, List.mem_cons]
  by_cases ha : a = l[i]
  · subst ha
    simp [hout]
  · simp [ha, or_left_comm]

/-- A method enters a table in the place of the one with its signature that another class
declares, or in a new place. -/
theorem mem_place (hnodup : vtable.Nodup) (hn : n ∉ vtable) {name : String} {type : MethodType}
    (hone : ∀ a ∈ vtable, ∀ b ∈ vtable, a.owner ≠ n.owner → b.owner ≠ n.owner →
      (r.method a).signature = (name, type) → (r.method b).signature = (name, type) → a = b) :
    (r.place vtable n name type).2.Nodup ∧ ∀ a, a ∈ (r.place vtable n name type).2 ↔
      a = n ∨ (a ∈ vtable ∧ (a.owner ≠ n.owner → (r.method a).signature ≠ (name, type))) := by
  have hfits : ∀ a : MethodRef, (a.owner != n.owner && (r.method a).name == name &&
      (r.method a).type == type) = true ↔
        a.owner ≠ n.owner ∧ (r.method a).signature = (name, type) := by
    intro a
    simp [Method.signature, and_assoc]
  unfold place
  dsimp only
  cases hfind : vtable.findIdx? fun a : MethodRef =>
      a.owner != n.owner && (r.method a).name == name && (r.method a).type == type with
  | some i =>
    obtain ⟨hlt, hi, -⟩ := List.findIdx?_eq_some_iff_getElem.1 hfind
    obtain ⟨howner, hsignature⟩ := (hfits _).1 hi
    refine ⟨hnodup.set hn, fun a => (mem_set_iff_of_nodup hnodup hlt).trans ?_⟩
    refine or_congr_right (and_congr_right fun ha => ⟨fun hne ho hs => hne ?_, ?_⟩)
    · exact hone a ha _ (List.getElem_mem hlt) ho howner hs hsignature
    · rintro h rfl
      exact h howner hsignature
  | none =>
    have hout : ∀ a ∈ vtable, a.owner ≠ n.owner → (r.method a).signature ≠ (name, type) := by
      intro a ha ho hs
      have := List.findIdx?_eq_none_iff.1 hfind a ha
      rw [(hfits a).2 ⟨ho, hs⟩] at this
      cases this
    refine ⟨hnodup.append (List.nodup_singleton n) ?_, fun a => ?_⟩
    · simpa using hn
    · show a ∈ vtable ++ [n] ↔ _
      rw [List.mem_append, List.mem_singleton, or_comm]
      exact or_congr_right ⟨fun ha => ⟨ha, hout a ha⟩, And.left⟩

theorem Laid.mem_own_iff (h : r.Laid c inherited methods vtable) (hi : r.Heritage c inherited)
    (hn : n.owner = c) :
    n ∈ vtable ↔ ∃ m, methods[n.index]? = some m ∧ m.isVirtual = true := by
  rw [h.mem]
  exact ⟨fun h' => h'.elim And.right fun h' => absurd hn (hi.other n h'.1), fun h' => .inl ⟨hn, h'⟩⟩

theorem Laid.mem_inherited_iff (h : r.Laid c inherited methods vtable) (hn : n.owner ≠ c) :
    n ∈ vtable ↔ n ∈ inherited ∧
      ∀ m ∈ methods, m.isVirtual = true → m.signature ≠ (r.method n).signature := by
  rw [h.mem]
  exact ⟨fun h' => h'.resolve_left fun h' => hn h'.1, .inr⟩

/-- A virtual method is entered. -/
theorem Laid.enter (h : r.Laid c inherited methods vtable) (hi : r.Heritage c inherited)
    (m : Method) (hm : ∀ m' ∈ methods, m'.signature ≠ m.signature) (hvirtual : m.isVirtual = true) :
    r.Laid c inherited (methods ++ [m])
      (r.place vtable ⟨c, methods.length⟩ m.name m.type).2 := by
  have hnew : (⟨c, methods.length⟩ : MethodRef) ∉ vtable := by
    rw [h.mem_own_iff hi rfl, List.getElem?_eq_none (Nat.le_refl _)]
    rintro ⟨m', hm', -⟩
    cases hm'
  obtain ⟨hnodup, hmem⟩ := mem_place h.nodup hnew fun a ha b hb hao hbo has hbs =>
    hi.single a ((h.mem_inherited_iff hao).1 ha).1 b ((h.mem_inherited_iff hbo).1 hb).1
      (has.trans hbs.symm)
  refine ⟨nodup_signature_concat h.distinct hm, hnodup, fun a => (hmem a).trans ?_⟩
  by_cases ho : a.owner = c
  · have hinherited : a ∉ inherited := fun ha => hi.other a ha ho
    have hself : a = ⟨c, methods.length⟩ ↔ a.index = methods.length := by
      obtain ⟨o, i⟩ := a
      simp_all
    rw [h.mem_own_iff hi ho, hself]
    simp only [getElem?_concat_eq_some_iff]
    constructor
    · rintro (hi | ⟨⟨m', hm', hv⟩, -⟩)
      · exact .inl ⟨ho, m, .inr ⟨hi, rfl⟩, hvirtual⟩
      · exact .inl ⟨ho, m', .inl hm', hv⟩
    · rintro (⟨-, m', hm' | ⟨hi, -⟩, hv⟩ | ⟨ha, -⟩)
      · exact .inr ⟨⟨m', hm', hv⟩, absurd ho⟩
      · exact .inl hi
      · exact absurd ha hinherited
  · have hself : a ≠ ⟨c, methods.length⟩ := fun ha => ho (congrArg MethodRef.owner ha)
    rw [h.mem_inherited_iff ho, List.forall_mem_append, List.forall_mem_singleton]
    constructor
    · rintro (ha | ⟨⟨ha, hold⟩, hs⟩)
      · exact absurd ha hself
      · exact .inr ⟨ha, hold, fun _ => (hs ho).symm⟩
    · rintro (⟨ha, -⟩ | ⟨ha, hold, hs⟩)
      · exact absurd ha ho
      · exact .inr ⟨⟨ha, hold⟩, fun _ => (hs hvirtual).symm⟩

/-- Giving places to methods lays them. -/
theorem laid_of_layMethods (hi : r.Heritage c inherited) {specs : List MethodSpec}
    {done : List Method} {table : List MethodRef} (h : r.Laid c inherited done table)
    (hlay : r.layMethods c table done specs = .ok (methods, vtable)) :
    r.Laid c inherited methods vtable := by
  induction specs generalizing done table with
  | nil =>
    cases hlay
    exact h
  | cons spec specs ih =>
    rw [layMethods] at hlay
    split at hlay
    case h_1 => cases hlay
    case h_2 type _ =>
      split at hlay
      case isTrue => cases hlay
      case isFalse hnew =>
        have hfresh : ∀ m' ∈ done, m'.signature ≠ (spec.name, type) := by
          simpa [Method.signature] using hnew
        split at hlay
        case isTrue hstays =>
          let m : Method := ⟨spec.name, type, spec.isStatic, spec.body, none⟩
          have hvirtual : m.isVirtual = false := by
            simpa [m, Method.isVirtual, Method.isConstructor, or_iff_not_imp_left] using hstays
          exact ih (h.skip m hfresh hvirtual) hlay
        case isFalse henters =>
          let m : Method := ⟨spec.name, type, spec.isStatic, spec.body,
            some (r.place table ⟨c, done.length⟩ spec.name type).1⟩
          have hvirtual : m.isVirtual = true := by
            simpa [m, Method.isVirtual, Method.isConstructor] using henters
          exact ih (h.enter hi m hfresh hvirtual) hlay

end Place

/-! ## Every registry -/

/-- What a class inherits from the class that it extends, if there is one. -/
def inherited (r : Registry) (superclass : Option ClassId) : List MethodRef :=
  ((superclass.map r.get).map Class.vtable).getD []

/-- Superclasses come first, no class declares a signature twice, a table holds what is nearest to
its class, and methods are looked for along the chain before anywhere else. -/
structure WellFormed (r : Registry) : Prop where
  ranked : r.Ranked
  distinct : ∀ c, ((r.get c).methods.map Method.signature).Nodup
  nodup : ∀ c, (r.get c).vtable.Nodup
  mem_vtable_iff : ∀ c n, n ∈ (r.get c).vtable ↔
    r.nearest? c (r.method n).signature = some n
  methodOrder : ∀ c, c.index < r.size → ∃ rest, (r.get c).methodOrder = r.chain c ++ rest

theorem Admits.superclass_lt (h : r.Admits k) (hd : k.superclass = some d) :
    d.index < r.size := by
  cases h with
  | defined _ _ hextends => exact lt_size_of_superclass hextends hd
  | array _ root _ =>
    cases hd
    exact root

theorem Admits.methodOrder (h : r.Admits k) : ∃ rest, k.methodOrder =
    ⟨r.size⟩ :: ((k.superclass.map r.get).map Class.methodOrder).getD [] ++ rest := by
  cases h with
  | defined => exact ⟨_, rfl⟩
  | array => exact ⟨[], (List.append_nil _).symm⟩

theorem WellFormed.lt_size_of_mem_vtable (wf : r.WellFormed) (hc : c.index < r.size)
    (hn : n ∈ (r.get c).vtable) : n.owner.index < r.size := by
  obtain ⟨howner, -⟩ := of_nearest? ((wf.mem_vtable_iff c n).1 hn)
  have := wf.ranked.le_of_mem_chain howner
  omega

theorem WellFormed.lt_size_of_mem_inherited (wf : r.WellFormed) {superclass : Option ClassId}
    (hs : ∀ d, superclass = some d → d.index < r.size) (hn : n ∈ r.inherited superclass) :
    n.owner.index < r.size := by
  cases superclass with
  | none => cases hn
  | some d => exact wf.lt_size_of_mem_vtable (hs d rfl) hn

theorem WellFormed.heritage (wf : r.WellFormed) {superclass : Option ClassId}
    (hs : ∀ d, superclass = some d → d.index < r.size) :
    r.Heritage ⟨r.size⟩ (r.inherited superclass) := by
  cases superclass with
  | none => exact ⟨List.nodup_nil, nofun, nofun⟩
  | some d =>
    refine ⟨wf.nodup d, fun n hn ho => ?_, fun n hn n' hn' hsame => ?_⟩
    · have := wf.lt_size_of_mem_vtable (hs d rfl) hn
      rw [ho] at this
      exact Nat.lt_irrefl _ this
    · have hfirst := (wf.mem_vtable_iff d n).1 hn
      have hsecond := (wf.mem_vtable_iff d n').1 hn'
      rw [hsame, hsecond] at hfirst
      exact (Option.some.inj hfirst).symm

theorem WellFormed.laid (wf : r.WellFormed) (h : r.Admits k) :
    r.Laid ⟨r.size⟩ (r.inherited k.superclass) k.methods k.vtable := by
  have hi := wf.heritage fun _ => h.superclass_lt
  cases h with
  | defined _ _ _ _ _ hmethods => exact laid_of_layMethods hi (.start hi) hmethods
  | array => exact .start hi

theorem WellFormed.nearest?_push (wf : r.WellFormed) (hc : c.index < r.size) :
    (r.push k).2.nearest? c s = r.nearest? c s := by
  rw [nearest?, nearest?, wf.ranked.chain_push hc, ← List.head?_filterMap, ← List.head?_filterMap]
  refine congrArg List.head? (List.filterMap_congr fun d hd => ?_)
  have := wf.ranked.le_of_mem_chain hd
  rw [declaredVirtual?, declaredVirtual?, get_push_of_lt (by omega)]

/-- A table that was there still holds what is nearest. -/
theorem WellFormed.mem_vtable_iff_push (wf : r.WellFormed) (hc : c.index < r.size) :
    n ∈ (r.get c).vtable ↔
      (r.push k).2.nearest? c ((r.push k).2.method n).signature = some n := by
  rw [wf.nearest?_push hc]
  by_cases hn : n.owner.index < r.size
  · rw [method_push_of_lt hn]
    exact wf.mem_vtable_iff c n
  · refine iff_of_false (fun h => hn (wf.lt_size_of_mem_vtable hc h)) fun h => hn ?_
    have := wf.ranked.le_of_mem_chain (of_nearest? h).1
    omega

theorem WellFormed.ranked_push (wf : r.WellFormed) (h : r.Admits k) : (r.push k).2.Ranked :=
  wf.ranked.push fun _ => h.superclass_lt

/-- Of the methods that the new class declares, its table holds the virtual ones. -/
theorem WellFormed.mem_vtable_new_iff_of_own (wf : r.WellFormed) (h : r.Admits k)
    (ho : n.owner = ⟨r.size⟩) :
    n ∈ k.vtable ↔
      (r.push k).2.nearest? ⟨r.size⟩ ((r.push k).2.method n).signature = some n := by
  have hl := wf.laid h
  have hget : (r.push k).2.get ⟨r.size⟩ = k := get_push_self
  rw [hl.mem_own_iff (wf.heritage fun _ => h.superclass_lt) ho]
  constructor
  · rintro ⟨m, hm, hv⟩
    have hdeclares : (r.push k).2.Declares ⟨r.size⟩ n := by
      refine ⟨ho, ?_⟩
      rw [hget]
      exact (List.getElem?_eq_some_iff.1 hm).1
    have hmethod := hdeclares.getElem?
    rw [hget, hm] at hmethod
    have hdistinct : (((r.push k).2.get ⟨r.size⟩).methods.map Method.signature).Nodup := by
      rw [hget]
      exact hl.distinct
    have hdeclared := (declaredVirtual?_eq_some_iff hdistinct).2
      ⟨hdeclares, by rw [← Option.some.inj hmethod]; exact hv, rfl⟩
    rw [(wf.ranked_push h).nearest?_eq, hdeclared]
    rfl
  · intro hn
    obtain ⟨-, hdeclares, hv, -⟩ := of_nearest? hn
    have hmethod := hdeclares.getElem?
    rw [ho, hget] at hmethod
    exact ⟨_, hmethod, hv⟩

/-- Of the methods of other classes, the table of the new class holds those that the superclass
gives it and that it does not override. -/
theorem WellFormed.mem_vtable_new_iff_of_other (wf : r.WellFormed) (h : r.Admits k)
    (ho : n.owner ≠ ⟨r.size⟩) :
    n ∈ k.vtable ↔
      (r.push k).2.nearest? ⟨r.size⟩ ((r.push k).2.method n).signature = some n := by
  have hget : (r.push k).2.get ⟨r.size⟩ = k := get_push_self
  have hsame : n ∈ r.inherited k.superclass → (r.push k).2.method n = r.method n := fun hn =>
    method_push_of_lt (wf.lt_size_of_mem_inherited (fun _ => h.superclass_lt) hn)
  rw [(wf.laid h).mem_inherited_iff ho, (wf.ranked_push h).nearest?_eq, hget]
  cases hfound : (r.push k).2.declaredVirtual? ⟨r.size⟩ ((r.push k).2.method n).signature with
  | some n' =>
    obtain ⟨hdeclares, hv, hs⟩ := of_declaredVirtual? hfound
    have hm := List.mem_of_getElem? hdeclares.getElem?
    rw [hget] at hm
    refine iff_of_false (fun ⟨hn, hnone⟩ => ?_) fun hsome => ?_
    · rw [hsame hn] at hs
      exact hnone _ hm hv hs
    · cases hsome
      exact ho hdeclares.1
  | none =>
    have hnone := declaredVirtual?_eq_none_iff.1 hfound
    rw [hget] at hnone
    cases hd : k.superclass with
    | none => exact iff_of_false (fun hn => nomatch hn.1) nofun
    | some d =>
      rw [hd] at hsame
      refine Iff.trans ?_ (wf.mem_vtable_iff_push (h.superclass_lt hd))
      refine ⟨And.left, fun hn => ⟨hn, ?_⟩⟩
      rwa [hsame hn] at hnone

/-- The table of the new class holds what is nearest to it. -/
theorem WellFormed.mem_vtable_new_iff (wf : r.WellFormed) (h : r.Admits k) :
    n ∈ k.vtable ↔
      (r.push k).2.nearest? ⟨r.size⟩ ((r.push k).2.method n).signature = some n :=
  if ho : n.owner = ⟨r.size⟩ then wf.mem_vtable_new_iff_of_own h ho
  else wf.mem_vtable_new_iff_of_other h ho

theorem WellFormed.methodOrder_of_lt (wf : r.WellFormed) (hc : c.index < r.size) :
    ∃ rest, ((r.push k).2.get c).methodOrder = (r.push k).2.chain c ++ rest := by
  rw [get_push_of_lt hc, wf.ranked.chain_push hc]
  exact wf.methodOrder c hc

/-- The new class is looked through first, and then what it extends. -/
theorem WellFormed.methodOrder_new (wf : r.WellFormed) (h : r.Admits k) :
    ∃ rest, k.methodOrder = (r.push k).2.chain ⟨r.size⟩ ++ rest := by
  obtain ⟨rest, horder⟩ := h.methodOrder
  rw [(wf.ranked_push h).chain_eq, get_push_self]
  cases hd : k.superclass with
  | none =>
    rw [hd] at horder
    exact ⟨rest, horder⟩
  | some d =>
    have hlt := h.superclass_lt hd
    obtain ⟨rest', horder'⟩ := wf.methodOrder d hlt
    refine ⟨rest' ++ rest, horder.trans ?_⟩
    rw [hd, Option.map_some, Option.map_some, Option.getD_some, horder', Option.map_some,
      Option.getD_some, wf.ranked.chain_push hlt, List.cons_append, List.cons_append,
      List.append_assoc]

/-- A class that is admitted keeps a registry well formed. -/
theorem WellFormed.push (wf : r.WellFormed) (h : r.Admits k) : (r.push k).2.WellFormed := by
  have hranked := wf.ranked_push h
  refine ⟨hranked, fun c => ?_, fun c => ?_, fun c n => ?_, fun c hc => ?_⟩
  · rcases get_push_cases r k c with ⟨-, hget⟩ | ⟨-, hget⟩ | hget <;> rw [hget]
    · exact wf.distinct c
    · exact (wf.laid h).distinct
    · exact List.nodup_nil
  · rcases get_push_cases r k c with ⟨-, hget⟩ | ⟨-, hget⟩ | hget <;> rw [hget]
    · exact wf.nodup c
    · exact (wf.laid h).nodup
    · exact List.nodup_nil
  · rcases get_push_cases r k c with ⟨hc, hget⟩ | ⟨rfl, hget⟩ | hget
    · rw [hget]
      exact wf.mem_vtable_iff_push hc
    · rw [hget]
      exact wf.mem_vtable_new_iff h
    · rw [hranked.nearest?_eq, declaredVirtual?, hget]
      exact iff_of_false nofun nofun
  · rw [size_push] at hc
    rcases Nat.lt_succ_iff_lt_or_eq.1 hc with hc | hc
    · exact wf.methodOrder_of_lt hc
    · obtain rfl : c = ⟨r.size⟩ := by rw [← hc]
      rw [get_push_self]
      exact wf.methodOrder_new h

theorem wellFormed_empty : empty.WellFormed where
  ranked := fun _ _ h => nomatch h
  distinct := fun _ => List.nodup_nil
  nodup := fun _ => List.nodup_nil
  mem_vtable_iff := fun _ _ => iff_of_false nofun nofun
  methodOrder := fun _ h => nomatch h

theorem Reachable.wellFormed (h : r.Reachable) : r.WellFormed :=
  h.induction wellFormed_empty fun _ _ => WellFormed.push

/-! ## Selection -/

/-- The table gives the nearest method, wherever the called method has its place. -/
theorem WellFormed.selectVirtual?_eq (wf : r.WellFormed) (c : ClassId) (m : MethodRef) :
    r.selectVirtual? c m = r.nearest? c (r.method m).signature := by
  have hfits : ∀ n ∈ (r.get c).vtable, (r.method n).sameSignature (r.method m) = true →
      r.nearest? c (r.method m).signature = some n := by
    intro n hn hs
    rw [← Method.sameSignature_iff.1 hs]
    exact (wf.mem_vtable_iff c n).1 hn
  unfold selectVirtual?
  dsimp only
  split
  case h_1 n hn =>
    obtain ⟨hplace, hs⟩ := Option.filter_eq_some_iff.1 hn
    obtain ⟨i, -, hi⟩ := Option.bind_eq_some_iff.1 hplace
    exact (hfits n (List.mem_of_getElem? hi) hs).symm
  case h_2 =>
    cases hfind : (r.get c).vtable.find? fun n => (r.method n).sameSignature (r.method m) with
    | some n =>
      have hs : (r.method n).sameSignature (r.method m) = true := by
        simpa using List.find?_some hfind
      exact (hfits n (List.mem_of_find?_eq_some hfind) hs).symm
    | none =>
      cases hnearest : r.nearest? c (r.method m).signature with
      | none => rfl
      | some n =>
        obtain ⟨-, -, -, hs⟩ := of_nearest? hnearest
        have hn := (wf.mem_vtable_iff c n).2 (by rwa [hs])
        exact absurd (Method.sameSignature_iff.2 hs) (List.find?_eq_none.1 hfind n hn)

/-- What runs when a virtual method is called on an object of a subclass. -/
theorem WellFormed.dispatch_eq (wf : r.WellFormed) {m : MethodRef}
    (hvirtual : (r.method m).isVirtual = true) (hsub : r.isSubclass c m.owner = true) :
    r.dispatch c m = .ok ((r.nearest? c (r.method m).signature).getD m) := by
  rw [dispatch, hvirtual, hsub, wf.selectVirtual?_eq]
  rfl

end Registry

end GuestBoundary
