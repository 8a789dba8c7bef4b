import GuestBoundary.Proofs.Native.Registration

/-!
# Null functions

Registering holds the function against null, linking takes whatever was entered under the symbol.
So a binding is null only where a method was linked to a symbol that was entered with the null
function: `Bindings.Consistent.perform_cases` says what one operation does to a bridge,
`Bindings.Consistent.nullFree_perform_iff` when it keeps bindings free of null, and
`null_bindings_come_from_links` what that makes of runs.
-/

namespace GuestBoundary

namespace Bridge

variable {b b' : Bridge} {r : Registry} {binding : Binding}

/-- No method is bound to the null function. -/
def NullFree (b : Bridge) : Prop := ∀ entry ∈ b.bindings, entry.2.address ≠ 0

/-- No symbol was entered with the null function. -/
def NullFreeSymbols (b : Bridge) : Prop := ∀ entry ∈ b.symbols, entry.2 ≠ 0

/-- The method has no binding, and nothing but the null function was entered under its symbols. -/
def OnlyNull (b : Bridge) (r : Registry) (m : MethodRef) : Prop :=
  (b.binding? r m).isNone = true ∧
    ∀ symbol ∈ candidates r m, (b.symbols.lookup symbol).getD 0 = 0

/-- There is one binding for each key. -/
def Keyed (b : Bridge) : Prop := (b.bindings.map Prod.fst).Nodup

theorem nullFree_rebound_iff (h : b.NullFree) (signatures : SignatureCache) :
    (b.rebound r signatures binding).NullFree ↔ binding.address ≠ 0 := by
  refine ⟨fun hnew => hnew _ List.mem_cons_self, fun ha entry hmem => ?_⟩
  rcases List.mem_cons.1 hmem with rfl | hmem
  · exact ha
  · exact h entry (List.mem_filter.1 hmem).1

theorem Keyed.rebound (h : b.Keyed) (signatures : SignatureCache) :
    (b.rebound r signatures binding).Keyed := by
  refine List.nodup_cons.2 ⟨fun hmem => ?_, h.sublist (List.filter_sublist.map _)⟩
  obtain ⟨entry, hentry, hkey⟩ := List.mem_map.1 hmem
  have hne := (List.mem_filter.1 hentry).2
  simp [hkey] at hne

/-- A binding that is kept is the one that is found. -/
theorem Keyed.lookup_of_mem (h : b.Keyed) {key : BindingKey} (hmem : (key, binding) ∈ b.bindings) :
    b.bindings.lookup key = some binding := by
  obtain ⟨l₁, l₂, hl⟩ := List.append_of_mem hmem
  refine List.lookup_eq_some_iff.2 ⟨l₁, l₂, hl, fun entry hentry => ?_⟩
  rw [Keyed, hl, List.map_append, List.nodup_append] at h
  have hne := h.2.2 entry.1 (List.mem_map_of_mem hentry) key (by simp)
  simpa using hne.symm

theorem linked?_ne_zero (h : b.NullFreeSymbols) (m : MethodRef) : b.linked? r m ≠ some 0 := by
  have hlookup : ∀ symbol, b.symbols.lookup symbol ≠ some 0 := by
    intro symbol hsome
    obtain ⟨l₁, l₂, hl, -⟩ := List.lookup_eq_some_iff.1 hsome
    exact h (symbol, 0) (by rw [hl]; simp) rfl
  unfold linked?
  cases hshort : b.symbols.lookup (Symbol.shortName (r.nameOf m.owner) (r.method m).name) with
  | none =>
    rw [Option.none_or]
    exact hlookup _
  | some address =>
    rw [Option.some_or, ← hshort]
    exact hlookup _

/-- How a bridge changes while nothing is linked and no symbol is entered: signatures are read,
bindings are dropped, and methods are bound to functions that are not null. -/
inductive Managed (b : Bridge) : Bridge → Prop where
  | refl : Managed b b
  | sign {b' : Bridge} (h : Managed b b') (signatures : SignatureCache) :
    Managed b { b' with signatures }
  | drop {b' : Bridge} (h : Managed b b') (p : BindingKey × Binding → Bool) :
    Managed b { b' with bindings := b'.bindings.filter p }
  | bind {b' : Bridge} (h : Managed b b') (r : Registry) (signatures : SignatureCache)
    {binding : Binding} (ha : binding.address ≠ 0) : Managed b (b'.rebound r signatures binding)

namespace Managed

theorem symbols_eq (h : Managed b b') : b'.symbols = b.symbols := by
  induction h with
  | refl => rfl
  | sign _ _ ih => exact ih
  | drop _ _ ih => exact ih
  | bind _ _ _ _ ih => exact ih

theorem nullFree (h : Managed b b') (hb : b.NullFree) : b'.NullFree := by
  induction h with
  | refl => exact hb
  | sign _ _ ih => exact ih
  | drop _ p ih => exact fun entry hmem => ih entry (List.mem_filter.1 hmem).1
  | bind _ r signatures ha ih => exact (nullFree_rebound_iff ih signatures).2 ha

theorem keyed (h : Managed b b') (hb : b.Keyed) : b'.Keyed := by
  induction h with
  | refl => exact hb
  | sign _ _ ih => exact ih
  | drop _ p ih => exact ih.sublist (List.filter_sublist.map _)
  | bind _ r signatures ha ih => exact ih.rebound signatures

end Managed

end Bridge

namespace Native

open Bridge (Managed)

/-! ## What one operation does -/

namespace Bindings

variable {s s' : Bindings} {op : BindingOp} {c : ClassId} {m : MethodRef}

/-- The function to which an operation links a method: it calls one that has no binding, and a
function was entered under one of the symbols of that method. -/
def linking? (s : Bindings) : BindingOp → Option Address
  | .invoke owner name descriptor =>
    ((s.registry.find? owner).bind fun c => s.registry.declaredMethod? c name descriptor).bind
      fun m => if (s.bridge.binding? s.registry m).isSome then none
        else s.bridge.linked? s.registry m
  | _ => none

namespace Consistent

theorem managed_register? {b : Bridge} (h : s.Consistent) (hb : Managed b s.bridge)
    {name descriptor : String} {address : Address}
    (hs : s.register? c name descriptor address = some s') : Managed b s'.bridge := by
  obtain ⟨m, signatures, -, ha, -, rfl⟩ := h.exists_of_register? hs
  exact hb.bind _ _ ha

theorem managed_registerAll (h : s.Consistent) (entries : List Interface.NativeEntry) :
    Managed s.bridge (s.registerAll c entries).bridge := by
  have hkept : (s.registerAll c entries).Consistent ∧
      Managed s.bridge (s.registerAll c entries).bridge :=
    registerAll_induction (P := fun s' => s'.Consistent ∧ Managed s.bridge s'.bridge)
      (fun ⟨h, hb⟩ hs => ⟨h.register? hs, h.managed_register? hb hs⟩) ⟨h, .refl⟩ entries
  exact hkept.2

/-- What linking does: a method that has a binding, or no function, is left alone. -/
theorem link_cases (h : s.Consistent) (m : MethodRef) :
    (((s.bridge.binding? s.registry m).isSome ∨ s.bridge.linked? s.registry m = none) ∧
      s.link m = s) ∨
    ∃ address signatures, s.bridge.binding? s.registry m = none ∧
      s.bridge.linked? s.registry m = some address ∧
      (s.link m).bridge = s.bridge.rebound s.registry signatures
        ⟨m, address, .ofType (s.registry.method m).type⟩ := by
  unfold Bindings.link
  rcases h.bridge.resolve_cases m with
    ⟨binding, hb, -⟩ | ⟨hb, address, signatures, ha, -, hok⟩ | ⟨hb, ha, -⟩
  · exact .inl ⟨.inl (by rw [hb]; rfl), by rw [hb]⟩
  · exact .inr ⟨address, signatures, hb, ha, by rw [hb, ha, hok]⟩
  · exact .inl ⟨.inr ha, by rw [hb, ha]⟩

/-- A method without a binding is bound to the function that is found, or there is none. -/
theorem resolve_of_unbound (h : s.Consistent) {m : MethodRef}
    (hnone : s.bridge.binding? s.registry m = none) :
    (∃ binding b, s.bridge.linked? s.registry m = some binding.address ∧
      s.bridge.resolve s.registry m = .ok (binding, b)) ∨
    (s.bridge.linked? s.registry m = none ∧ s.bridge.resolve s.registry m =
      .error (.unsatisfied (s.registry.describeMethod m) (Bridge.candidates s.registry m))) := by
  rcases h.bridge.resolve_cases m with
    ⟨binding, hb, -⟩ | ⟨-, address, signatures, ha, -, hok⟩ | ⟨-, ha, herror⟩
  · rw [hnone] at hb
    cases hb
  · exact .inl ⟨_, _, ha, hok⟩
  · exact .inr ⟨ha, herror⟩

/-- An operation links a method, enters a symbol, or does nothing of both. -/
theorem perform_cases (h : s.Consistent) (op : BindingOp) :
    (∃ m address signatures, s.linking? op = some address ∧
      (s.perform op).bridge = s.bridge.rebound s.registry signatures
        ⟨m, address, .ofType (s.registry.method m).type⟩) ∨
    (∃ symbol address, op = .addSymbol symbol address ∧ s.linking? op = none ∧
      (s.perform op).bridge = s.bridge.addSymbol symbol address) ∨
    (s.linking? op = none ∧ Managed s.bridge (s.perform op).bridge) := by
  cases op with
  | define spec => exact .inr (.inr ⟨rfl, .refl⟩)
  | findClass name =>
    refine .inr (.inr ⟨rfl, ?_⟩)
    rw [Bindings.perform]
    split <;> exact .refl
  | register owner name descriptor address =>
    refine .inr (.inr ⟨rfl, ?_⟩)
    rw [Bindings.perform]
    cases hs : (s.registry.find? owner).bind fun c => s.register? c name descriptor address with
    | none => exact .refl
    | some s' =>
      obtain ⟨c, -, hs⟩ := Option.bind_eq_some_iff.1 hs
      exact h.managed_register? .refl hs
  | registerAll owner entries =>
    refine .inr (.inr ⟨rfl, ?_⟩)
    rw [Bindings.perform]
    split
    · exact h.managed_registerAll entries
    · exact .refl
  | unregister owner =>
    refine .inr (.inr ⟨rfl, ?_⟩)
    rw [Bindings.perform]
    split
    · exact .drop .refl _
    · exact .refl
  | addSymbol symbol address => exact .inr (.inl ⟨symbol, address, rfl, rfl, rfl⟩)
  | invoke owner name descriptor =>
    rw [Bindings.perform, linking?]
    split
    next m hm =>
      rw [hm, Option.bind_some]
      rcases h.link_cases m with ⟨hnone, hsame⟩ | ⟨address, signatures, hb, ha, hbridge⟩
      · refine .inr (.inr ⟨?_, ?_⟩)
        · split
          · rfl
          next hb => exact hnone.resolve_left hb
        · rw [hsame]
          exact .refl
      · refine .inl ⟨m, address, signatures, ?_, hbridge⟩
        rw [hb]
        exact ha
    next hm =>
      rw [hm]
      exact .inr (.inr ⟨rfl, .refl⟩)
  | sign descriptor =>
    refine .inr (.inr ⟨rfl, ?_⟩)
    rw [Bindings.perform]
    split
    · exact .sign .refl _
    · exact .refl

/-- An operation leaves bindings free of null just if it links no method to the null function. -/
theorem nullFree_perform_iff (h : s.Consistent) (hs : s.bridge.NullFree) (op : BindingOp) :
    (s.perform op).bridge.NullFree ↔ s.linking? op ≠ some 0 := by
  rcases h.perform_cases op with
    ⟨m, address, signatures, hlink, hbridge⟩ | ⟨symbol, address, -, hlink, hbridge⟩ |
    ⟨hlink, hmanaged⟩
  · rw [hbridge, hlink, Bridge.nullFree_rebound_iff hs]
    exact not_congr (Option.some_inj).symm
  · rw [hbridge, hlink]
    exact iff_of_true hs nofun
  · rw [hlink]
    exact iff_of_true (hmanaged.nullFree hs) nofun

theorem keyed_perform (h : s.Consistent) (hs : s.bridge.Keyed) (op : BindingOp) :
    (s.perform op).bridge.Keyed := by
  rcases h.perform_cases op with
    ⟨m, address, signatures, -, hbridge⟩ | ⟨symbol, address, -, -, hbridge⟩ | ⟨-, hmanaged⟩
  · rw [hbridge]
    exact hs.rebound signatures
  · rw [hbridge]
    exact hs
  · exact hmanaged.keyed hs

/-- Symbols stay free of null as long as none is entered with it. -/
theorem nullFreeSymbols_perform (h : s.Consistent) (hs : s.bridge.NullFreeSymbols)
    (hop : ∀ symbol, op ≠ .addSymbol symbol 0) : (s.perform op).bridge.NullFreeSymbols := by
  rcases h.perform_cases op with
    ⟨m, address, signatures, -, hbridge⟩ | ⟨symbol, address, rfl, -, hbridge⟩ | ⟨-, hmanaged⟩
  · rw [hbridge]
    exact hs
  · rw [hbridge]
    intro entry hmem
    rcases List.mem_cons.1 hmem with rfl | hmem
    · rintro rfl
      exact hop symbol rfl
    · exact hs entry hmem
  · rw [Bridge.NullFreeSymbols, hmanaged.symbols_eq]
    exact hs

/-- Nothing is linked to the null function if no symbol was entered with it. -/
theorem linking?_ne_zero (hs : s.bridge.NullFreeSymbols) (op : BindingOp) :
    s.linking? op ≠ some 0 := by
  intro hlink
  unfold linking? at hlink
  split at hlink
  · obtain ⟨m, -, hlinked⟩ := Option.bind_eq_some_iff.1 hlink
    split at hlinked
    · cases hlinked
    · exact Bridge.linked?_ne_zero hs m hlinked
  · cases hlink

/-- Bindings are free of null just if no method was last bound to the null function. -/
theorem nullFree_iff_lastBound (h : s.Consistent) (hs : s.bridge.Keyed) :
    s.bridge.NullFree ↔
      ∀ m, s.registry.Declares m.owner m → lastBound s.events m ≠ some 0 := by
  constructor
  · intro hnull m hm hlast
    rw [← h.address m hm, Option.map_eq_some_iff] at hlast
    obtain ⟨binding, hb, ha⟩ := hlast
    obtain ⟨l₁, l₂, hl, -⟩ := List.lookup_eq_some_iff.1 hb
    exact hnull (s.registry.bindingKey m, binding) (by rw [hl]; simp) ha
  · rintro hlast ⟨key, binding⟩ hmem ha
    obtain ⟨hdeclares, rfl, -⟩ := h.bridge.entries key binding hmem
    refine hlast binding.method hdeclares ?_
    rw [← h.address _ hdeclares, Bridge.binding?, hs.lookup_of_mem hmem]
    exact congrArg some ha

end Consistent

/-! ## Runs -/

variable {config : Config} {ops pre : List BindingOp}

theorem keyed_run (config : Config) (hops : ∀ op ∈ ops, op.Valid) :
    (run config ops).bridge.Keyed := by
  induction ops using List.reverseRecOn with
  | nil => exact List.nodup_nil
  | append_singleton ops op ih =>
    have hvalid : ∀ op ∈ ops, op.Valid := fun op hmem => hops op (List.mem_append_left _ hmem)
    rw [run_concat]
    exact (consistent_run config hvalid).keyed_perform (ih hvalid) op

theorem nullFreeSymbols_run (config : Config) (hops : ∀ op ∈ ops, op.Valid)
    (hnull : ∀ symbol, .addSymbol symbol 0 ∉ ops) :
    (run config ops).bridge.NullFreeSymbols := by
  induction ops using List.reverseRecOn with
  | nil => exact nofun
  | append_singleton ops op ih =>
    have hvalid : ∀ op ∈ ops, op.Valid := fun op hmem => hops op (List.mem_append_left _ hmem)
    rw [run_concat]
    refine (consistent_run config hvalid).nullFreeSymbols_perform (ih hvalid fun symbol hmem => ?_)
      fun symbol heq => ?_
    · exact hnull symbol (List.mem_append_left _ hmem)
    · exact hnull symbol (by rw [heq]; simp)

/-- Bindings are free of null all the way just if no operation links a method to the null
function. -/
theorem nullFree_run_iff (config : Config) (hops : ∀ op ∈ ops, op.Valid) :
    (∀ pre, pre <+: ops → (run config pre).bridge.NullFree) ↔
      ∀ pre op, pre ++ [op] <+: ops → (run config pre).linking? op ≠ some 0 := by
  have hconsistent : ∀ {pre}, pre <+: ops → (run config pre).Consistent := fun hpre =>
    consistent_run config fun op hmem => hops op (hpre.subset hmem)
  constructor
  · intro hall pre op hpre
    have hbefore := (List.prefix_append pre [op]).trans hpre
    have hafter := hall _ hpre
    rw [run_concat] at hafter
    exact ((hconsistent hbefore).nullFree_perform_iff (hall pre hbefore) op).1 hafter
  · intro hlinks pre
    induction pre using List.reverseRecOn with
    | nil => exact fun _ => nofun
    | append_singleton pre op ih =>
      intro hpre
      have hbefore := (List.prefix_append pre [op]).trans hpre
      rw [run_concat]
      exact ((hconsistent hbefore).nullFree_perform_iff (ih hbefore) op).2 (hlinks pre op hpre)

end Bindings

/-- Where the null functions among the bindings of a run come from. -/
structure NullConduct (config : Config) (ops : List BindingOp) (s : Bindings) : Prop where
  /-- The null function is never registered. -/
  refused : ∀ c name descriptor, ∃ e, Bridge.Refused s.registry c name descriptor 0 e ∧
    s.bridge.register s.registry c name descriptor 0 = .error e
  /-- A method without a binding is bound to the null function if that is the first one that is
  found under its symbols. -/
  linked : ∀ m, s.bridge.binding? s.registry m = none →
    ((∃ binding b, s.bridge.resolve s.registry m = .ok (binding, b) ∧ binding.address = 0) ↔
      s.bridge.linked? s.registry m = some 0)
  /-- It is unsatisfied only if nothing was entered under its symbols. -/
  unsatisfied : ∀ m, s.bridge.binding? s.registry m = none →
    (s.bridge.resolve s.registry m =
        .error (.unsatisfied (s.registry.describeMethod m) (Bridge.candidates s.registry m)) ↔
      s.bridge.linked? s.registry m = none)
  /-- Bindings are free of null if no method was last bound to the null function. -/
  bound : s.bridge.NullFree ↔
    ∀ m, s.registry.Declares m.owner m → lastBound s.events m ≠ some 0
  /-- They are so all the way if no operation links a method to the null function. -/
  always : (∀ pre, pre <+: ops → (Bindings.run config pre).bridge.NullFree) ↔
    ∀ pre op, pre ++ [op] <+: ops → (Bindings.run config pre).linking? op ≠ some 0
  /-- None does so as long as no symbol is entered with the null function. -/
  unentered : (∀ symbol, .addSymbol symbol 0 ∉ ops) →
    ∀ pre, pre <+: ops → (Bindings.run config pre).bridge.NullFree

/-- Whatever is registered, unregistered, entered and called in whatever order, a binding is null
only if its method was linked to a symbol that was entered with the null function. -/
theorem null_bindings_come_from_links (config : Config) (ops : List BindingOp)
    (hops : ∀ op ∈ ops, op.Valid) : NullConduct config ops (Bindings.run config ops) := by
  have hs := Bindings.consistent_run config hops
  constructor
  case refused =>
    intro c name descriptor
    rcases hs.bridge.register_cases c name descriptor 0 with
      ⟨e, hrefused, herror⟩ | ⟨m, signatures, -, -, ha, -⟩
    · exact ⟨e, hrefused, herror⟩
    · exact absurd rfl ha
  case linked =>
    intro m hnone
    rcases hs.resolve_of_unbound hnone with ⟨binding, b, ha, hok⟩ | ⟨ha, herror⟩
    · rw [ha, hok]
      constructor
      · rintro ⟨binding', b', heq, hzero⟩
        cases heq
        exact congrArg some hzero
      · intro hzero
        exact ⟨binding, b, rfl, Option.some.inj hzero⟩
    · rw [ha, herror]
      exact iff_of_false (fun ⟨binding, b, heq, _⟩ => nomatch heq) nofun
  case unsatisfied =>
    intro m hnone
    rcases hs.resolve_of_unbound hnone with ⟨binding, b, ha, hok⟩ | ⟨ha, herror⟩
    · rw [ha, hok]
      exact iff_of_false nofun nofun
    · rw [ha, herror]
      exact iff_of_true rfl rfl
  case bound => exact hs.nullFree_iff_lastBound (Bindings.keyed_run config hops)
  case always => exact Bindings.nullFree_run_iff config hops
  case unentered =>
    intro hnull
    refine (Bindings.nullFree_run_iff config hops).2 fun pre op hpre => ?_
    have hbefore := (List.prefix_append pre [op]).trans hpre
    exact Bindings.Consistent.linking?_ne_zero
      (Bindings.nullFreeSymbols_run config (fun op hmem => hops op (hbefore.subset hmem))
        fun symbol hmem => hnull symbol (hbefore.subset hmem)) op

/-- A native method is called of which the only symbol was entered with the null function. -/
def linkNull : List BindingOp :=
  [.define clockSpec, .addSymbol "Java_Clock_now" 0, .invoke "Clock" "now" "()J"]

theorem valid_linkNull : ∀ op ∈ linkNull, op.Valid := by
  intro op hop
  simp only [linkNull, List.mem_cons, List.not_mem_nil, or_false] at hop
  rcases hop with rfl | rfl | rfl
  · intro elements h
    cases h
  all_goals trivial

theorem null_bindings_of_linkNull : (∀ op ∈ linkNull, op.Valid) ∧
    NullConduct .default linkNull (Bindings.run .default linkNull) :=
  ⟨valid_linkNull, null_bindings_come_from_links .default linkNull valid_linkNull⟩

/-- The call binds the method to the null function, where it should be found unsatisfied. -/
theorem null_function_is_bound :
    (¬ ∀ ops, (∀ op ∈ ops, op.Valid) → (Bindings.run .default ops).bridge.NullFree) ∧
    ¬ ∀ ops, (∀ op ∈ ops, op.Valid) → ∀ m,
      ((Bindings.run .default ops).registry.method m).isNative = true →
      (Bindings.run .default ops).bridge.OnlyNull (Bindings.run .default ops).registry m →
      ∃ method symbols, (Bindings.run .default ops).bridge.resolve
        (Bindings.run .default ops).registry m = .error (.unsatisfied method symbols) := by
  constructor
  · intro hall
    have hnull := hall linkNull valid_linkNull
    have hbound : (Bindings.run .default linkNull).bridge.bindings.map (·.2.address) = [0] := by
      decide +kernel
    obtain ⟨entry, hmem, ha⟩ := List.mem_map.1 (hbound ▸ List.mem_singleton_self 0)
    exact hnull entry hmem ha
  · intro hall
    have hvalid : ∀ op ∈ linkNull.take 2, op.Valid := fun op hmem =>
      valid_linkNull op (List.mem_of_mem_take hmem)
    obtain ⟨method, symbols, herror⟩ := hall (linkNull.take 2) hvalid ⟨⟨28⟩, 0⟩
      (by decide +kernel) ⟨by decide +kernel, by decide +kernel⟩
    have hresolved : ((Bindings.run .default (linkNull.take 2)).bridge.resolve
        (Bindings.run .default (linkNull.take 2)).registry ⟨⟨28⟩, 0⟩).toOption.map
          (·.1.address) = some 0 := by
      decide +kernel
    rw [herror] at hresolved
    cases hresolved

end Native

end GuestBoundary
