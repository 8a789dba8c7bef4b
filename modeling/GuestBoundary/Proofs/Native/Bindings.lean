import GuestBoundary.Bridge
import GuestBoundary.Proofs.Classes.Names
import GuestBoundary.Proofs.Descriptor.Grammar

/-!
# Bindings of native methods

Bindings are kept under names: those of a class and a method and a descriptor.  In a registry that
can come about no two methods have one key (`Registry.Reachable.bindingKey_injective`), so a binding
that is found for a method was made for it (`Bridge.Consistent.of_binding?`).  Registering and
linking either fail for a reason that is listed, and leave everything as it was, or bind one method
(`Bridge.Consistent.register_cases`, `Bridge.Consistent.resolve_cases`).
-/

namespace GuestBoundary

/-! ## Keys -/

namespace Registry

variable {r r' : Registry} {m n : MethodRef}

/-- No two methods are bound under one key. -/
theorem Reachable.bindingKey_injective (h : r.Reachable) (hm : r.Declares m.owner m)
    (hn : r.Declares n.owner n) (hkey : r.bindingKey m = r.bindingKey n) : m = n := by
  rw [bindingKey, bindingKey, BindingKey.mk.injEq] at hkey
  obtain ⟨howner, hname, hdescriptor⟩ := hkey
  have hclass := h.nameOf_injective hm.lt_size hn.lt_size howner
  obtain ⟨c, i⟩ := m
  obtain ⟨d, j⟩ := n
  dsimp only at hclass hm hn
  subst hclass
  have hsignature : (r.method ⟨c, i⟩).signature = (r.method ⟨c, j⟩).signature :=
    Prod.ext hname (MethodType.text_injective hdescriptor)
  exact hm.eq_of_signature_eq (h.wellFormed.distinct c) hn hsignature

theorem Extends.bindingKey_eq (h : Extends r r') (hm : m.owner.index < r.size) :
    r'.bindingKey m = r.bindingKey m := by
  rw [bindingKey, h.method_eq hm, nameOf, h.get_eq _ hm, bindingKey, nameOf]

end Registry

/-! ## Signatures that are kept -/

theorem Signature.parse_text (t : MethodType) : Signature.parse t.text = .ok (.ofType t) := by
  rw [parse, MethodType.parse_eq_ok_iff.2 rfl]
  rfl

namespace SignatureCache

variable {c c' : SignatureCache} {s : Signature} {descriptor : String}

/-- Every signature that is kept is the one that its descriptor spells. -/
def Faithful (c : SignatureCache) : Prop :=
  ∀ s ∈ c.entries, Signature.parse s.descriptor = .ok s

theorem faithful_empty : Faithful .empty := fun _ h => nomatch h

theorem Faithful.parse_of_find? (h : c.Faithful) (hs : c.find? descriptor = some s) :
    Signature.parse descriptor = .ok s := by
  have hd := List.find?_some hs
  rw [beq_iff_eq] at hd
  rw [← hd]
  exact h s (List.mem_of_find?_eq_some hs)

theorem descriptor_of_parse (h : Signature.parse descriptor = .ok s) :
    s.descriptor = descriptor := by
  rw [Signature.parse] at h
  cases hm : MethodType.parse descriptor with
  | error e =>
    rw [hm] at h
    cases h
  | ok m =>
    rw [hm] at h
    cases h
    exact MethodType.parse_eq_ok_iff.1 hm

theorem Faithful.get (h : c.Faithful) (hget : c.get descriptor = .ok (s, c')) :
    Signature.parse descriptor = .ok s ∧ c'.Faithful := by
  unfold SignatureCache.get at hget
  split at hget
  next s' hs =>
    cases hget
    exact ⟨h.parse_of_find? hs, h⟩
  next =>
    split at hget
    · cases hget
    next s' hs =>
      cases hget
      refine ⟨hs, fun s'' hmem => ?_⟩
      rcases List.mem_append.1 hmem with hmem | hmem
      · exact h s'' hmem
      · obtain rfl := List.mem_singleton.1 hmem
        rw [descriptor_of_parse hs]
        exact hs

/-- The descriptor of a method type is always read. -/
theorem Faithful.get_text (h : c.Faithful) (t : MethodType) :
    ∃ c', c.get t.text = .ok (.ofType t, c') := by
  unfold SignatureCache.get
  split
  next s hs =>
    have := h.parse_of_find? hs
    rw [Signature.parse_text] at this
    cases this
    exact ⟨c, rfl⟩
  next =>
    rw [Signature.parse_text]
    exact ⟨_, rfl⟩

end SignatureCache


/-! ## The bindings of a bridge -/

theorem lookup_filter {α β : Type} [BEq α] [LawfulBEq α] (l : List (α × β)) (p : α → Bool)
    (k : α) : (l.filter fun e => p e.1).lookup k = if p k then l.lookup k else none := by
  induction l with
  | nil => simp
  | cons e l ih =>
    obtain ⟨k', v⟩ := e
    by_cases hk : k = k'
    · subst hk
      by_cases hp : p k = true <;> simp [hp, ih]
    · have hne : (k == k') = false := by simpa using hk
      by_cases hp : p k' = true <;> simp [hp, ih, List.lookup_cons, hne]

namespace Bridge

variable {b b' : Bridge} {r r' : Registry} {c : ClassId} {m n : MethodRef} {address : Address}
  {binding : Binding}

/-- Every binding is kept under the key of its method, with that method's signature. -/
structure Consistent (b : Bridge) (r : Registry) : Prop where
  signatures : b.signatures.Faithful
  entries : ∀ key binding, (key, binding) ∈ b.bindings →
    r.Declares binding.method.owner binding.method ∧ key = r.bindingKey binding.method ∧
      binding.signature = .ofType (r.method binding.method).type

/-- The binding that is found for a method was made for it. -/
theorem Consistent.of_binding? (h : b.Consistent r) (hr : r.Reachable)
    (hm : r.Declares m.owner m) (hb : b.binding? r m = some binding) :
    binding.method = m ∧ binding.signature = .ofType (r.method m).type := by
  obtain ⟨l₁, l₂, hl, -⟩ := List.lookup_eq_some_iff.1 hb
  obtain ⟨hdeclares, hkey, hsignature⟩ := h.entries (r.bindingKey m) binding (by rw [hl]; simp)
  obtain rfl := hr.bindingKey_injective hm hdeclares hkey
  exact ⟨rfl, hsignature⟩

theorem Consistent.empty (config : Config) (r : Registry) : (Bridge.empty config).Consistent r where
  signatures := SignatureCache.faithful_empty
  entries := fun _ _ h => nomatch h

/-- Dropping bindings does no harm. -/
theorem Consistent.filter (h : b.Consistent r) (p : BindingKey × Binding → Bool) :
    Consistent { b with bindings := b.bindings.filter p } r where
  signatures := h.signatures
  entries := fun key binding hmem => h.entries key binding (List.mem_filter.1 hmem).1

theorem Consistent.unbind (h : b.Consistent r) (m : MethodRef) : (b.unbind r m).Consistent r :=
  h.filter _

theorem Consistent.grow (h : b.Consistent r) (hgrow : Registry.Extends r r') :
    b.Consistent r' where
  signatures := h.signatures
  entries := by
    intro key binding hmem
    obtain ⟨hdeclares, hkey, hsignature⟩ := h.entries key binding hmem
    have hlt := hdeclares.lt_size
    rw [hgrow.bindingKey_eq hlt, hgrow.method_eq hlt]
    exact ⟨hgrow.declares hdeclares, hkey, hsignature⟩

/-- A method with a key of its own is found again as before. -/
theorem binding?_filter (p : BindingKey → Bool) :
    binding? { b with bindings := b.bindings.filter fun entry => p entry.1 } r m =
      if p (r.bindingKey m) then b.binding? r m else none :=
  lookup_filter _ _ _

/-- The bridge with a binding in place of the ones under its key. -/
def rebound (b : Bridge) (r : Registry) (signatures : SignatureCache) (binding : Binding) :
    Bridge :=
  { b with
    signatures
    bindings := (r.bindingKey binding.method, binding) ::
      b.bindings.filter fun entry => entry.1 != r.bindingKey binding.method }

theorem binding?_rebound (signatures : SignatureCache) :
    (b.rebound r signatures binding).binding? r m =
      if r.bindingKey m = r.bindingKey binding.method then some binding else b.binding? r m := by
  have hrest := lookup_filter b.bindings (fun key => key != r.bindingKey binding.method)
    (r.bindingKey m)
  unfold binding? rebound
  by_cases hk : r.bindingKey m = r.bindingKey binding.method
  · simp [hk]
  · have hne : (r.bindingKey m == r.bindingKey binding.method) = false := beq_eq_false_iff_ne.2 hk
    rw [List.lookup_cons, hne, if_neg hk]
    simpa [hk] using hrest

theorem Consistent.rebound (h : b.Consistent r) {signatures : SignatureCache}
    (hs : signatures.Faithful) (hm : r.Declares m.owner m) (address : Address) :
    (b.rebound r signatures ⟨m, address, .ofType (r.method m).type⟩).Consistent r where
  signatures := hs
  entries := by
    intro key binding hmem
    rcases List.mem_cons.1 hmem with hmem | hmem
    · cases hmem
      exact ⟨hm, rfl, rfl⟩
    · exact h.entries key binding (List.mem_filter.1 hmem).1

/-- Binding a method never fails. -/
theorem Consistent.bind_eq (h : b.Consistent r) (m : MethodRef) (address : Address) :
    ∃ signatures : SignatureCache, signatures.Faithful ∧
      b.bind r m address = .ok (⟨m, address, .ofType (r.method m).type⟩,
        b.rebound r signatures ⟨m, address, .ofType (r.method m).type⟩) := by
  obtain ⟨signatures, hget⟩ := h.signatures.get_text (r.method m).type
  refine ⟨signatures, (h.signatures.get hget).2, ?_⟩
  unfold bind Method.descriptor
  rw [hget]
  rfl

theorem rebound_unbind (signatures : SignatureCache) (s : Signature) :
    (b.unbind r m).rebound r signatures ⟨m, address, s⟩ =
      b.rebound r signatures ⟨m, address, s⟩ := by
  simp [unbind, rebound, List.filter_filter]

/-! ### Registration -/

/-- Why a method is not registered. -/
inductive Refused (r : Registry) (c : ClassId) (name descriptor : String) (address : Address) :
    BindError → Prop where
  | noSuchMethod (h : r.declaredMethod? c name descriptor = none) :
    Refused r c name descriptor address (.noSuchMethod (r.nameOf c) name descriptor)
  | notNative {m : MethodRef} (h : r.declaredMethod? c name descriptor = some m)
    (hn : (r.method m).isNative = false) :
    Refused r c name descriptor address (.notNative (r.nameOf c) name descriptor)
  | nullFunction {m : MethodRef} (h : r.declaredMethod? c name descriptor = some m)
    (hn : (r.method m).isNative = true) (ha : address = 0) :
    Refused r c name descriptor address (.nullFunction name descriptor)

/-- A method is refused for one of three reasons, or registered. -/
theorem Consistent.register_cases (h : b.Consistent r) (c : ClassId) (name descriptor : String)
    (address : Address) :
    (∃ e, Refused r c name descriptor address e ∧
      b.register r c name descriptor address = .error e) ∨
    ∃ (m : MethodRef) (signatures : SignatureCache),
      r.declaredMethod? c name descriptor = some m ∧ (r.method m).isNative = true ∧
      address ≠ 0 ∧ signatures.Faithful ∧
      b.register r c name descriptor address = .ok (⟨m, address, .ofType (r.method m).type⟩,
        b.rebound r signatures ⟨m, address, .ofType (r.method m).type⟩) := by
  unfold register
  cases hm : r.declaredMethod? c name descriptor with
  | none => exact .inl ⟨_, .noSuchMethod hm, rfl⟩
  | some m =>
    by_cases hn : (r.method m).isNative = true
    · by_cases ha : address = 0
      · exact .inl ⟨_, .nullFunction hm hn ha, by simp [hn, ha]⟩
      · obtain ⟨signatures, hs, hbind⟩ := (h.unbind m).bind_eq m address
        refine .inr ⟨m, signatures, rfl, hn, ha, hs, ?_⟩
        simp only [hn, Bool.not_true, Bool.false_eq_true, if_false, beq_iff_eq, ha]
        rw [hbind, rebound_unbind]
    · rw [Bool.not_eq_true] at hn
      exact .inl ⟨_, .notNative hm hn, by simp [hn]⟩

/-! ### Linking -/

/-- The function that a method is linked to: that of its short symbol, or else of its long one. -/
def linked? (b : Bridge) (r : Registry) (m : MethodRef) : Option Address :=
  (b.symbols.lookup (Symbol.shortName (r.nameOf m.owner) (r.method m).name)).or
    (b.symbols.lookup (Symbol.longName (r.nameOf m.owner) (r.method m).name (r.method m).type))

theorem findSome?_candidates (b : Bridge) (r : Registry) (m : MethodRef) :
    (candidates r m).findSome? (fun symbol => b.symbols.lookup symbol) = b.linked? r m := by
  unfold candidates linked?
  rw [List.findSome?_cons, List.findSome?_cons, List.findSome?_nil]
  cases b.symbols.lookup (Symbol.shortName (r.nameOf m.owner) (r.method m).name) with
  | some a => rfl
  | none =>
    rw [Option.none_or]
    dsimp only
    split
    next h => exact h.symm
    next h => exact h.symm

/-- A method that has a binding keeps it; any other one is linked, or has no function. -/
theorem Consistent.resolve_cases (h : b.Consistent r) (m : MethodRef) :
    (∃ binding, b.binding? r m = some binding ∧ b.resolve r m = .ok (binding, b)) ∨
    (b.binding? r m = none ∧ ∃ (address : Address) (signatures : SignatureCache),
      b.linked? r m = some address ∧ signatures.Faithful ∧
      b.resolve r m = .ok (⟨m, address, .ofType (r.method m).type⟩,
        b.rebound r signatures ⟨m, address, .ofType (r.method m).type⟩)) ∨
    (b.binding? r m = none ∧ b.linked? r m = none ∧
      b.resolve r m = .error (.unsatisfied (r.describeMethod m) (candidates r m))) := by
  unfold resolve
  cases hb : b.binding? r m with
  | some binding => exact .inl ⟨binding, rfl, rfl⟩
  | none =>
    rw [findSome?_candidates]
    cases ha : b.linked? r m with
    | none => exact .inr (.inr ⟨rfl, rfl, rfl⟩)
    | some address =>
      obtain ⟨signatures, hs, hbind⟩ := h.bind_eq m address
      exact .inr (.inl ⟨rfl, address, signatures, rfl, hs, hbind⟩)

end Bridge

end GuestBoundary
