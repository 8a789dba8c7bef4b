import GuestBoundary.Proofs.Classes.Table

/-!
# What a virtual call runs

A virtual call runs the nearest method of the chain (`dispatch_selects_nearest`), whichever
declaration it names, as long as the chain has one.  Looking the method up by name finds the same
one, and goes on through the interfaces where the chain has none.  Binding does not: without a
method in the chain every declaration is bound to itself (`dispatch_found_iff`).
-/

namespace GuestBoundary.Registry

variable {r : Registry} {c : ClassId} {m m₁ m₂ n : MethodRef}

/-! ## The nearest override -/

/-- A virtual method with the signature of `m` that a class of the chain declares, while no class in
front of it declares such a one. -/
structure IsNearest (r : Registry) (c : ClassId) (m : Method) (n : MethodRef) : Prop where
  declared : n.index < (r.get n.owner).methods.length
  isVirtual : (r.method n).isVirtual = true
  sameSignature : (r.method n).sameSignature m = true
  nearest : ∃ nearer farther, r.chain c = nearer ++ n.owner :: farther ∧
    ∀ d ∈ nearer, ∀ k ∈ (r.get d).methods, k.isVirtual = true → k.sameSignature m = false

theorem sameSignature_eq_false_iff {k m : Method} :
    k.sameSignature m = false ↔ k.signature ≠ m.signature := by
  rw [← Bool.not_eq_true, Method.sameSignature_iff]

theorem WellFormed.isNearest_iff (wf : r.WellFormed) {k : Method} :
    r.IsNearest c k n ↔ r.nearest? c k.signature = some n := by
  rw [nearest?, List.findSome?_eq_some_iff]
  constructor
  · rintro ⟨hdeclared, hv, hs, nearer, farther, hchain, hnearer⟩
    refine ⟨nearer, n.owner, farther, hchain, ?_, fun d hd => ?_⟩
    · rw [declaredVirtual?_eq_some_iff (wf.distinct _)]
      exact ⟨⟨rfl, hdeclared⟩, hv, Method.sameSignature_iff.1 hs⟩
    · rw [declaredVirtual?_eq_none_iff]
      exact fun k' hk hv => sameSignature_eq_false_iff.1 (hnearer d hd k' hk hv)
  · rintro ⟨nearer, d, farther, hchain, hfound, hnearer⟩
    obtain ⟨⟨rfl, hdeclared⟩, hv, hs⟩ := of_declaredVirtual? hfound
    refine ⟨hdeclared, hv, Method.sameSignature_iff.2 hs, nearer, farther, hchain, ?_⟩
    intro d hd k' hk hv
    exact sameSignature_eq_false_iff.2 (declaredVirtual?_eq_none_iff.1 (hnearer d hd) k' hk hv)

/-- Calling a virtual method of a supertype runs the nearest override, if the chain of the
receiver's class declares one, and nothing else is the nearest one. -/
theorem dispatch_selects_nearest (h : r.Reachable) (hvirtual : (r.method m).isVirtual = true)
    (hsub : r.isSubclass c m.owner = true)
    (hoverride : ∃ d ∈ r.chain c, ∃ k ∈ (r.get d).methods,
      k.isVirtual = true ∧ k.sameSignature (r.method m) = true) :
    ∃ n, r.dispatch c m = .ok n ∧ ∀ n', r.IsNearest c (r.method m) n' ↔ n' = n := by
  have wf := h.wellFormed
  have hdispatch := wf.dispatch_eq hvirtual hsub
  cases hnearest : r.nearest? c (r.method m).signature with
  | none =>
    obtain ⟨d, hd, k, hk, hv, hs⟩ := hoverride
    exact absurd (Method.sameSignature_iff.1 hs) (nearest?_eq_none_iff.1 hnearest d hd k hk hv)
  | some n =>
    rw [hnearest] at hdispatch
    refine ⟨n, hdispatch, fun n' => ?_⟩
    rw [wf.isNearest_iff, hnearest, Option.some_inj, eq_comm]

/-- An interface with a method, a class that declares it too, a subclass of it that implements the
interface and overrides the method, and a subclass of that one. -/
def shapes : Registry :=
  let area (body : Body) : List MethodSpec := [⟨"area", "()I", false, body⟩]
  let one : Body := .code (.value (.int 1))
  (((basic.defineOrKeep ⟨"Measured", .interface, none, [], [], area .abstract⟩).defineOrKeep
    ⟨"Shape", .abstract, some "java/lang/Object", [], [], area one⟩).defineOrKeep
    ⟨"Square", .concrete, some "Shape", ["Measured"], [], area one⟩).defineOrKeep
    ⟨"Tile", .concrete, some "Square", [], [], []⟩

theorem shapes_reachable : shapes.Reachable :=
  (((Reachable.basic.defineOrKeep (by nofun)).defineOrKeep (by nofun)).defineOrKeep
    (by nofun)).defineOrKeep (by nofun)

theorem tile_inherits_area :
    (shapes.method ⟨⟨28⟩, 0⟩).isVirtual = true ∧ shapes.isSubclass ⟨31⟩ ⟨28⟩ = true ∧
      ∃ d ∈ shapes.chain ⟨31⟩, ∃ k ∈ (shapes.get d).methods,
        k.isVirtual = true ∧ k.sameSignature (shapes.method ⟨⟨28⟩, 0⟩) = true := by
  decide +kernel

/-- The method of the interface, called on the last class. -/
theorem dispatch_tile_area :
    ∃ n, shapes.dispatch ⟨31⟩ ⟨⟨28⟩, 0⟩ = .ok n ∧
      ∀ n', shapes.IsNearest ⟨31⟩ (shapes.method ⟨⟨28⟩, 0⟩) n' ↔ n' = n :=
  have ⟨hvirtual, hsub, hoverride⟩ := tile_inherits_area
  dispatch_selects_nearest shapes_reachable hvirtual hsub hoverride

/-! ## Looking a method up by name -/

theorem isSubclass_of_mem_methodOrder {d : ClassId} (h : d ∈ (r.get c).methodOrder) :
    r.isSubclass c d = true := by
  rw [isSubclass, inheritsWithin, Bool.or_eq_true, List.any_eq_true]
  refine .inr ⟨d, h, ?_⟩
  rw [beq_self_eq_true, Bool.true_or]

theorem WellFormed.isSubclass_of_mem_chain (wf : r.WellFormed) {d : ClassId} (h : d ∈ r.chain c) :
    r.isSubclass c d = true := by
  rcases Nat.lt_or_ge c.index r.size with hc | hc
  · obtain ⟨rest, horder⟩ := wf.methodOrder c hc
    refine isSubclass_of_mem_methodOrder ?_
    rw [horder]
    exact List.mem_append_left rest h
  · -- a place that no class has counts as a root
    rw [wf.ranked.chain_eq, get_of_le hc] at h
    obtain rfl : d = c := List.mem_singleton.1 h
    rw [isSubclass, inheritsWithin, get_of_le hc]
    rfl

theorem of_declaredMethod? {name descriptor : String}
    (h : r.declaredMethod? c name descriptor = some n) :
    r.Declares c n ∧ (r.method n).hasSignature name descriptor = true :=
  declares_of_findIdx? h

theorem declaredMethod?_eq_none_iff {name descriptor : String} :
    r.declaredMethod? c name descriptor = none ↔
      ∀ m ∈ (r.get c).methods, m.hasSignature name descriptor = false := by
  simp [declaredMethod?]

/-- Methods with one signature have one descriptor. -/
theorem hasSignature_of_signature_eq {k m : Method} {name descriptor : String}
    (hs : k.signature = m.signature) (h : m.hasSignature name descriptor = true) :
    k.hasSignature name descriptor = true := by
  obtain ⟨hname, htype⟩ := Prod.mk.inj hs
  rw [Method.hasSignature, Method.descriptor, hname, htype]
  exact h

/-- A class that declares nothing of a name and descriptor declares nothing of a signature that has
them. -/
theorem signature_ne_of_declaredMethod?_eq_none {name descriptor : String}
    (h : r.declaredMethod? c name descriptor = none) {m : Method}
    (hm : m.hasSignature name descriptor = true) :
    ∀ k ∈ (r.get c).methods, k.signature ≠ m.signature := by
  intro k hk hs
  have := declaredMethod?_eq_none_iff.1 h k hk
  rw [hasSignature_of_signature_eq hs hm] at this
  cases this

/-- What is found on the chain is the nearest method, and what is found elsewhere is found because
the chain has none. -/
theorem WellFormed.nearest?_of_findMethod? (wf : r.WellFormed) {name descriptor : String}
    (hfind : r.findMethod? c name descriptor = some m) (hvirtual : (r.method m).isVirtual = true) :
    (m.owner ∈ r.chain c ∧ r.nearest? c (r.method m).signature = some m) ∨
      (m.owner ∉ r.chain c ∧ r.nearest? c (r.method m).signature = none) := by
  have hc : c.index < r.size := by
    rcases Nat.lt_or_ge c.index r.size with hc | hc
    · exact hc
    · rw [findMethod?, get_of_le hc] at hfind
      cases hfind
  obtain ⟨_, -, hfound⟩ := List.exists_of_findSome?_eq_some hfind
  obtain ⟨-, hsignature⟩ := of_declaredMethod? hfound
  have hother : ∀ d, r.declaredMethod? d name descriptor = none →
      ∀ k ∈ (r.get d).methods, k.signature ≠ (r.method m).signature := fun _ hd =>
    signature_ne_of_declaredMethod?_eq_none hd hsignature
  obtain ⟨rest, horder⟩ := wf.methodOrder c hc
  rw [findMethod?, horder, List.findSome?_append] at hfind
  cases hchain : (r.chain c).findSome? fun d => r.declaredMethod? d name descriptor with
  | some m' =>
    rw [hchain, Option.some_or] at hfind
    cases hfind
    obtain ⟨nearer, d, farther, hsplit, hfound, hnearer⟩ := List.findSome?_eq_some_iff.1 hchain
    obtain ⟨⟨rfl, hdeclared⟩, -⟩ := of_declaredMethod? hfound
    refine .inl ⟨?_, wf.isNearest_iff.1 ?_⟩
    · rw [hsplit]
      exact List.mem_append_right _ List.mem_cons_self
    · refine ⟨hdeclared, hvirtual, Method.sameSignature_iff.2 rfl, nearer, farther, hsplit, ?_⟩
      exact fun d hd k hk _ => sameSignature_eq_false_iff.2 (hother d (hnearer d hd) k hk)
  | none =>
    have hnone := List.findSome?_eq_none_iff.1 hchain
    refine .inr ⟨fun howner => ?_, ?_⟩
    · rw [hchain, Option.none_or] at hfind
      obtain ⟨d, -, hfound⟩ := List.exists_of_findSome?_eq_some hfind
      obtain ⟨hdeclares, -⟩ := of_declaredMethod? hfound
      obtain rfl := hdeclares.1
      rw [hnone _ howner] at hfound
      cases hfound
    · exact nearest?_eq_none_iff.2 fun d hd k hk _ => hother d (hnone d hd) k hk

theorem isSubclass_of_findMethod? {name descriptor : String}
    (hfind : r.findMethod? c name descriptor = some m) : r.isSubclass c m.owner = true := by
  obtain ⟨d, hd, hfound⟩ := List.exists_of_findSome?_eq_some hfind
  obtain ⟨⟨rfl, -⟩, -⟩ := of_declaredMethod? hfound
  exact isSubclass_of_mem_methodOrder hd

theorem dispatch_of_isConstructor (h : (r.method m).isConstructor = true) :
    r.dispatch c m = .ok m := by
  rw [dispatch, Method.isVirtual, h]
  simp

/-- Virtual methods are bound for subtypes only. -/
theorem isSubclass_of_dispatch_eq_ok (hvirtual : (r.method m).isVirtual = true)
    (h : r.dispatch c m = .ok n) : r.isSubclass c m.owner = true := by
  rw [dispatch, hvirtual] at h
  cases hsub : r.isSubclass c m.owner with
  | true => rfl
  | false =>
    rw [hsub] at h
    cases h

/-- What a call on an object of a subclass runs is declared by a class above that of the object. -/
theorem WellFormed.isSubclass_of_dispatch (wf : r.WellFormed) (hsub : r.isSubclass c m.owner = true)
    (h : r.dispatch c m = .ok n) : r.isSubclass c n.owner = true := by
  cases hvirtual : (r.method m).isVirtual with
  | false =>
    rw [dispatch, hvirtual] at h
    cases h
    exact hsub
  | true =>
    rw [wf.dispatch_eq hvirtual hsub] at h
    cases h
    cases hnearest : r.nearest? c (r.method m).signature with
    | none => exact hsub
    | some n =>
      obtain ⟨howner, -⟩ := of_nearest? hnearest
      exact wf.isSubclass_of_mem_chain howner

/-- The method `m₂` that the name and descriptor of `m₁` find is bound to itself.  A call that names
`m₁` runs the same method just if it is `m₂` already or a class of the chain declares `m₂`; else
`m₁` runs, even where `m₂` overrides it. -/
theorem dispatch_found_iff (h : r.Reachable) (hvirtual₁ : (r.method m₁).isVirtual = true)
    (hvirtual₂ : (r.method m₂).isVirtual = true)
    (hsame : (r.method m₁).sameSignature (r.method m₂) = true)
    (hsub : r.isSubclass c m₁.owner = true)
    (hfind : r.findMethod? c (r.method m₁).name (r.method m₁).descriptor = some m₂) :
    r.dispatch c m₂ = .ok m₂ ∧
      (r.dispatch c m₁ = r.dispatch c m₂ ↔ m₁ = m₂ ∨ m₂.owner ∈ r.chain c) ∧
      (m₂.owner ∉ r.chain c → r.dispatch c m₁ = .ok m₁) := by
  have wf := h.wellFormed
  have hfirst := wf.dispatch_eq hvirtual₁ hsub
  have hsecond := wf.dispatch_eq hvirtual₂ (isSubclass_of_findMethod? hfind)
  rw [Method.sameSignature_iff.1 hsame] at hfirst
  rcases wf.nearest?_of_findMethod? hfind hvirtual₂ with ⟨howner, hnearest⟩ | ⟨howner, hnearest⟩
  · rw [hnearest, Option.getD_some] at hfirst hsecond
    refine ⟨hsecond, ?_, absurd howner⟩
    rw [hfirst, hsecond]
    exact iff_of_true rfl (.inr howner)
  · rw [hnearest, Option.getD_none] at hfirst hsecond
    refine ⟨hsecond, ?_, fun _ => hfirst⟩
    rw [hfirst, hsecond, or_iff_left howner, Except.ok.injEq]

/-- An interface with an abstract method, an interface that extends it and overrides the method, and
a class that implements the second one. -/
def measures : Registry :=
  let area (body : Body) : List MethodSpec := [⟨"area", "()I", false, body⟩]
  ((basic.defineOrKeep ⟨"Measured", .interface, none, [], [], area .abstract⟩).defineOrKeep
    ⟨"Unit", .interface, none, ["Measured"], [], area (.code (.value (.int 1)))⟩).defineOrKeep
    ⟨"Tile", .concrete, some "java/lang/Object", ["Unit"], [], []⟩

theorem measures_reachable : measures.Reachable :=
  ((Reachable.basic.defineOrKeep (by nofun)).defineOrKeep (by nofun)).defineOrKeep (by nofun)

theorem tile_finds_area :
    (measures.method ⟨⟨28⟩, 0⟩).isVirtual = true ∧ (measures.method ⟨⟨29⟩, 0⟩).isVirtual = true ∧
      (measures.method ⟨⟨28⟩, 0⟩).sameSignature (measures.method ⟨⟨29⟩, 0⟩) = true ∧
      measures.isSubclass ⟨30⟩ ⟨28⟩ = true ∧ measures.isSubclass ⟨30⟩ ⟨29⟩ = true ∧
      measures.findMethod? ⟨30⟩ (measures.method ⟨⟨28⟩, 0⟩).name
        (measures.method ⟨⟨28⟩, 0⟩).descriptor = some ⟨⟨29⟩, 0⟩ ∧
      measures.dispatch ⟨30⟩ ⟨⟨28⟩, 0⟩ = .ok ⟨⟨28⟩, 0⟩ ∧
      measures.dispatch ⟨30⟩ ⟨⟨29⟩, 0⟩ = .ok ⟨⟨29⟩, 0⟩ := by
  decide +kernel

theorem dispatch_found_in_interface :
    measures.dispatch ⟨30⟩ ⟨⟨29⟩, 0⟩ = .ok ⟨⟨29⟩, 0⟩ ∧
      (measures.dispatch ⟨30⟩ ⟨⟨28⟩, 0⟩ = measures.dispatch ⟨30⟩ ⟨⟨29⟩, 0⟩ ↔
        (⟨⟨28⟩, 0⟩ : MethodRef) = ⟨⟨29⟩, 0⟩ ∨ (⟨29⟩ : ClassId) ∈ measures.chain ⟨30⟩) ∧
      ((⟨29⟩ : ClassId) ∉ measures.chain ⟨30⟩ →
        measures.dispatch ⟨30⟩ ⟨⟨28⟩, 0⟩ = .ok ⟨⟨28⟩, 0⟩) :=
  have ⟨hvirtual₁, hvirtual₂, hsame, hsub, _, hfind, _⟩ := tile_finds_area
  dispatch_found_iff measures_reachable hvirtual₁ hvirtual₂ hsame hsub hfind

/-- Two declarations of one method, both inherited by a class, and each of them bound to itself,
although looking the method up yields the second one. -/
theorem dispatch_depends_on_declaration :
    measures.Reachable ∧
      ((measures.method ⟨⟨28⟩, 0⟩).isVirtual = true ∧
        (measures.method ⟨⟨29⟩, 0⟩).isVirtual = true ∧
        (measures.method ⟨⟨28⟩, 0⟩).sameSignature (measures.method ⟨⟨29⟩, 0⟩) = true ∧
        measures.isSubclass ⟨30⟩ ⟨28⟩ = true ∧ measures.isSubclass ⟨30⟩ ⟨29⟩ = true ∧
        measures.findMethod? ⟨30⟩ (measures.method ⟨⟨28⟩, 0⟩).name
          (measures.method ⟨⟨28⟩, 0⟩).descriptor = some ⟨⟨29⟩, 0⟩) ∧
      measures.dispatch ⟨30⟩ ⟨⟨28⟩, 0⟩ ≠ measures.dispatch ⟨30⟩ ⟨⟨29⟩, 0⟩ := by
  obtain ⟨hvirtual₁, hvirtual₂, hsame, hsub₁, hsub₂, hfind, hfirst, hsecond⟩ := tile_finds_area
  refine ⟨measures_reachable, ⟨hvirtual₁, hvirtual₂, hsame, hsub₁, hsub₂, hfind⟩, ?_⟩
  rw [hfirst, hsecond]
  decide

end GuestBoundary.Registry
