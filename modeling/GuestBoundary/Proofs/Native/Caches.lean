import GuestBoundary.Native.CallInterface
import GuestBoundary.Proofs.Native.Bindings
import Mathlib.Data.List.Dedup
import Mathlib.Data.List.Induction

/-!
# Caches of signatures and call interfaces

Call interfaces are kept under texts in which all reference types look the same, so many descriptors
share one.  That does no harm, since the text of a calling convention determines the kinds that it
was made of (`Signature.abi_eq_iff`), and with them the interface (`find?_interfacesAfter`).
Signatures are kept under their descriptors: whatever was asked for before, a request is answered as
if nothing was kept (`SignatureCache.Faithful.map_fst_get`), and what is kept keeps its place
(`SignatureCache.entries_stay_afterAll`).
-/

namespace GuestBoundary

/-! ## The text of a calling convention -/

namespace Kind

/-- Every kind. -/
def all : List Kind := object :: void :: Primitive.all.map primitive

theorem mem_all (k : Kind) : k ∈ all := by
  cases k with
  | primitive p => exact List.mem_cons_of_mem _ (List.mem_cons_of_mem _
      (List.mem_map_of_mem p.mem_all))
  | object => decide
  | void => decide

theorem abiName_injective : Function.Injective abiName := by
  have hnodup : (all.map abiName).Nodup := by decide
  intro k l h
  exact List.inj_on_of_nodup_map hnodup k.mem_all l.mem_all h

/-- Names hold neither of the characters that end them in a text. -/
theorem comma_notMem_abiName (k : Kind) : ',' ∉ k.abiName.toList := by
  have hall : ∀ k ∈ all, ',' ∉ k.abiName.toList := by decide
  exact hall k k.mem_all

theorem parenthesis_notMem_abiName (k : Kind) : ')' ∉ k.abiName.toList := by
  have hall : ∀ k ∈ all, ')' ∉ k.abiName.toList := by decide
  exact hall k k.mem_all

end Kind

namespace Signature

/-- The first occurrence of a character cuts a text in one way only. -/
theorem append_cons_inj {c : Char} : ∀ {xs ys us vs : List Char}, c ∉ xs → c ∉ ys →
    xs ++ c :: us = ys ++ c :: vs → xs = ys ∧ us = vs
  | [], [], _, _, _, _, h => ⟨rfl, (List.cons.inj h).2⟩
  | [], y :: ys, _, _, _, hy, h => absurd ((List.cons.inj h).1 ▸ List.mem_cons_self) hy
  | x :: xs, [], _, _, hx, _, h => absurd ((List.cons.inj h).1 ▸ List.mem_cons_self) hx
  | x :: xs, y :: ys, _, _, hx, hy, h => by
    obtain ⟨rfl, htail⟩ := List.cons.inj h
    obtain ⟨rfl, hrest⟩ := append_cons_inj (List.not_mem_of_not_mem_cons hx)
      (List.not_mem_of_not_mem_cons hy) htail
    exact ⟨rfl, hrest⟩

/-- The names of some kinds, one after the other. -/
def written (ks : List Kind) : List Char :=
  [',', ' '].intercalate (ks.map fun k => k.abiName.toList)

theorem written_cons_cons (k l : Kind) (ks : List Kind) :
    written (k :: l :: ks) = k.abiName.toList ++ ',' :: ' ' :: written (l :: ks) := by
  rw [written, List.map_cons, List.map_cons, List.intercalate_cons_cons, List.append_assoc]
  rfl

theorem written_singleton (k : Kind) : written [k] = k.abiName.toList := by
  simp [written]

theorem parenthesis_notMem_written : ∀ ks : List Kind, ')' ∉ written ks
  | [] => by simp [written]
  | [k] => by
    rw [written_singleton]
    exact k.parenthesis_notMem_abiName
  | k :: l :: ks => by
    have ih := parenthesis_notMem_written (l :: ks)
    have hk := k.parenthesis_notMem_abiName
    rw [written_cons_cons]
    simp [ih, hk]

/-- A single name is not a name and something after it. -/
theorem written_singleton_ne (k l l' : Kind) (ks : List Kind) :
    written [k] ≠ written (l :: l' :: ks) := by
  intro h
  have hmem : ',' ∈ written (l :: l' :: ks) := by
    rw [written_cons_cons]
    simp
  rw [← h, written_singleton] at hmem
  exact k.comma_notMem_abiName hmem

/-- The text tells how many kinds there are, and which. -/
theorem written_injective : ∀ (ks ls : List Kind) (k l : Kind),
    written (k :: ks) = written (l :: ls) → k :: ks = l :: ls
  | [], [], k, l, h => by
    rw [written_singleton, written_singleton, String.toList_inj] at h
    rw [Kind.abiName_injective h]
  | [], l' :: ls, k, l, h => absurd h (written_singleton_ne k l l' ls)
  | k' :: ks, [], k, l, h => absurd h.symm (written_singleton_ne l k k' ks)
  | k' :: ks, l' :: ls, k, l, h => by
    rw [written_cons_cons, written_cons_cons] at h
    obtain ⟨hname, hrest⟩ := append_cons_inj k.comma_notMem_abiName l.comma_notMem_abiName h
    have hkl := Kind.abiName_injective (String.toList_inj.1 hname)
    have ih := written_injective ks ls k' l' (List.cons.inj hrest).2
    rw [hkl, ih]

theorem toList_abi (s : Signature) :
    s.abi.toList = '(' :: (written (.object :: .object :: s.params) ++
      ')' :: ':' :: ' ' :: s.result.abiName.toList) := by
  have hnames : (String.toList ∘ Kind.abiName) = fun k => k.abiName.toList := rfl
  simp [abi, written, hnames, String.toList_append, String.toList_intercalate]

/-- The text of a calling convention tells the kinds of the parameters and of the result. -/
theorem abi_eq_iff (s t : Signature) : s.abi = t.abi ↔ s.params = t.params ∧ s.result = t.result := by
  constructor
  · intro h
    have hchars := congrArg String.toList h
    rw [toList_abi, toList_abi] at hchars
    obtain ⟨hparams, hresult⟩ := append_cons_inj (parenthesis_notMem_written _)
      (parenthesis_notMem_written _) (List.cons.inj hchars).2
    have hkinds := written_injective _ _ _ _ hparams
    refine ⟨(List.cons.inj (List.cons.inj hkinds).2).2, Kind.abiName_injective ?_⟩
    exact String.toList_inj.1 (List.cons.inj (List.cons.inj hresult).2).2
  · rintro ⟨hparams, hresult⟩
    rw [abi, abi, hparams, hresult]

end Signature

/-! ## Call interfaces -/

/-- What the threads keep after some calls, oldest first, of the functions of bindings. -/
def interfacesAfter (calls : List (ThreadId × Binding)) : ThreadId → CallInterfaces :=
  calls.foldl (fun kept call => (call.2.interface call.1 kept).2) fun _ => .empty

section

variable {kept : ThreadId → CallInterfaces} {t u : ThreadId} {b : Binding} {abi : String}

/-- A call adds the interface of its binding, for its own thread and if there was none. -/
theorem find?_interface :
    ((b.interface t kept).2 u).find? abi =
      if u = t ∧ (kept t).find? b.abi = none ∧ abi = b.abi then some (.ofSignature b.signature)
      else (kept u).find? abi := by
  unfold Binding.interface CallInterfaces.get
  by_cases hu : u = t
  · subst hu
    cases hfind : (kept u).find? b.abi with
    | some i => simp
    | none =>
      by_cases habi : abi = b.abi
      · simp [habi, CallInterfaces.find?]
      · have hne : (abi == b.abi) = false := beq_eq_false_iff_ne.2 habi
        simp [habi, hne, CallInterfaces.find?, List.lookup_cons]
  · simp [hu]

/-- Bindings with one text are called through one interface. -/
theorem ofSignature_eq_of_abi_eq {b' : Binding} (h : b'.abi = b.abi) :
    CallInterface.ofSignature b'.signature = .ofSignature b.signature := by
  obtain ⟨hparams, hresult⟩ := (Signature.abi_eq_iff _ _).1 h
  rw [CallInterface.ofSignature, CallInterface.ofSignature, hparams, hresult]

/-- An interface is found under the text of a binding if and only if the thread called one with the
same text, and then it has the types of the binding. -/
theorem find?_interfacesAfter (calls : List (ThreadId × Binding)) (t : ThreadId) (b : Binding)
    (i : CallInterface) :
    (interfacesAfter calls t).find? b.abi = some i ↔
      i = .ofSignature b.signature ∧ ∃ called : Binding, (t, called) ∈ calls ∧ called.abi = b.abi := by
  induction calls using List.reverseRecOn generalizing b i with
  | nil => simp [interfacesAfter, CallInterfaces.empty, CallInterfaces.find?]
  | append_singleton calls call ih =>
    obtain ⟨u, b'⟩ := call
    have hlast : interfacesAfter (calls ++ [(u, b')]) =
        (b'.interface u (interfacesAfter calls)).2 := by
      rw [interfacesAfter, List.foldl_append]
      rfl
    rw [hlast, find?_interface]
    split
    next hnew =>
      obtain ⟨rfl, -, habi⟩ := hnew
      rw [ofSignature_eq_of_abi_eq habi.symm, Option.some.injEq, eq_comm]
      have hcalled : ∃ called : Binding, (t, called) ∈ calls ++ [(t, b')] ∧ called.abi = b.abi :=
        ⟨b', by simp, habi.symm⟩
      exact (and_iff_left hcalled).symm
    next hold =>
      rw [ih]
      refine and_congr_right fun _ => ⟨fun ⟨called, hmem, habi⟩ => ⟨called, by simp [hmem], habi⟩, ?_⟩
      rintro ⟨called, hmem, habi⟩
      rcases List.mem_append.1 hmem with hmem | hmem
      · exact ⟨called, hmem, habi⟩
      · -- The last call kept nothing new, so an earlier one had its text.
        obtain ⟨rfl, rfl⟩ := Prod.mk.inj (List.mem_singleton.1 hmem)
        cases hfind : (interfacesAfter calls t).find? called.abi with
        | none => exact absurd ⟨rfl, hfind, habi.symm⟩ hold
        | some j =>
          obtain ⟨-, earlier, hmem, hearlier⟩ := (ih called j).1 hfind
          exact ⟨earlier, hmem, hearlier.trans habi⟩

/-- Whatever was called before, a function is called through the interface of its binding. -/
theorem interface_interfacesAfter (calls : List (ThreadId × Binding)) (t : ThreadId) (b : Binding) :
    (b.interface t (interfacesAfter calls)).1 = .ofSignature b.signature := by
  unfold Binding.interface CallInterfaces.get
  cases hfind : (interfacesAfter calls t).find? b.abi with
  | some i => exact ((find?_interfacesAfter calls t b i).1 hfind).1
  | none => rfl

end

/-! ## Requests for signatures -/

namespace SignatureCache

variable {c : SignatureCache} {d : String} {s : Signature} {i : Nat}

/-- The cache after a request; one that fails leaves it alone. -/
def after (c : SignatureCache) (descriptor : String) : SignatureCache :=
  match c.get descriptor with
  | .ok (_, c') => c'
  | .error _ => c

/-- The cache after some requests. -/
def afterAll (c : SignatureCache) (descriptors : List String) : SignatureCache :=
  descriptors.foldl after c

/-- Those of some requests that are answered. -/
def answered (c : SignatureCache) : List String → List String
  | [] => []
  | d :: ds => if (c.get d).isOk then d :: (c.after d).answered ds else (c.after d).answered ds

/-- What one request does. -/
theorem Faithful.after_cases (h : c.Faithful) (d : String) :
    (∃ e, Signature.parse d = .error e ∧ c.get d = .error e ∧ c.after d = c) ∨
    (∃ s, Signature.parse d = .ok s ∧ s ∈ c.entries ∧ s.descriptor = d ∧
      c.get d = .ok (s, c) ∧ c.after d = c) ∨
    ∃ s, Signature.parse d = .ok s ∧ s.descriptor = d ∧ (∀ s' ∈ c.entries, s'.descriptor ≠ d) ∧
      c.get d = .ok (s, ⟨c.entries ++ [s]⟩) ∧ c.after d = ⟨c.entries ++ [s]⟩ := by
  cases hfind : c.find? d with
  | some s =>
    have hget : c.get d = .ok (s, c) := by rw [SignatureCache.get, hfind]
    have hparse := h.parse_of_find? hfind
    refine .inr (.inl ⟨s, hparse, List.mem_of_find?_eq_some hfind, descriptor_of_parse hparse,
      hget, ?_⟩)
    rw [after, hget]
  | none =>
    cases hparse : Signature.parse d with
    | error e =>
      have hget : c.get d = .error e := by rw [SignatureCache.get, hfind, hparse]
      exact .inl ⟨e, rfl, hget, by rw [after, hget]⟩
    | ok s =>
      have hget : c.get d = .ok (s, ⟨c.entries ++ [s]⟩) := by
        rw [SignatureCache.get, hfind, hparse]
      have hnew : ∀ s' ∈ c.entries, s'.descriptor ≠ d := by simpa using List.find?_eq_none.1 hfind
      exact .inr (.inr ⟨s, rfl, descriptor_of_parse hparse, hnew, hget, by rw [after, hget]⟩)

theorem Faithful.after (h : c.Faithful) (d : String) : (c.after d).Faithful := by
  obtain ⟨e, -, -, hafter⟩ | ⟨s, -, -, -, -, hafter⟩ | ⟨s, -, -, -, hget, hafter⟩ := h.after_cases d
  · rwa [hafter]
  · rwa [hafter]
  · rw [hafter]
    exact (h.get hget).2

theorem Faithful.afterAll (h : c.Faithful) (ds : List String) : (c.afterAll ds).Faithful := by
  induction ds generalizing c with
  | nil => exact h
  | cons d ds ih => exact ih (h.after d)

/-- A request is answered as if nothing was kept. -/
theorem Faithful.map_fst_get (h : c.Faithful) (d : String) :
    (c.get d).map Prod.fst = Signature.parse d := by
  obtain ⟨e, hparse, hget, -⟩ | ⟨s, hparse, -, -, hget, -⟩ | ⟨s, hparse, -, -, hget, -⟩ :=
    h.after_cases d <;>
  · rw [hparse, hget]
    rfl

theorem Faithful.after_of_error (h : c.Faithful) {e : DescriptorError}
    (hparse : Signature.parse d = .error e) : c.after d = c := by
  obtain ⟨e', -, -, hafter⟩ | ⟨s, hok, -⟩ | ⟨s, hok, -⟩ := h.after_cases d
  · exact hafter
  · rw [hparse] at hok
    cases hok
  · rw [hparse] at hok
    cases hok

/-! ### One place for each descriptor -/

/-- Nothing that is kept is ever replaced. -/
theorem Faithful.entries_stay_after (h : c.Faithful) (d : String) :
    c.entries <+: (c.after d).entries := by
  obtain ⟨e, -, -, hafter⟩ | ⟨s, -, -, -, -, hafter⟩ | ⟨s, -, -, -, -, hafter⟩ := h.after_cases d
  · exact ⟨[], by rw [List.append_nil, hafter]⟩
  · exact ⟨[], by rw [List.append_nil, hafter]⟩
  · rw [hafter]
    exact List.prefix_append _ _

theorem Faithful.entries_stay_afterAll (h : c.Faithful) (ds : List String) :
    c.entries <+: (c.afterAll ds).entries := by
  induction ds generalizing c with
  | nil => exact List.prefix_rfl
  | cons d ds ih => exact (h.entries_stay_after d).trans (ih (h.after d))

/-- The signature of a descriptor stands in its place. -/
theorem find?_eq_some_iff :
    c.find? d = some s ↔ ∃ i, c.place? d = some i ∧ c.entries[i]? = some s := by
  rw [SignatureCache.find?, List.find?_eq_bind_findIdx?_getElem?, Option.bind_eq_some_iff]
  rfl

theorem place?_later {c' : SignatureCache} (h : c.entries <+: c'.entries)
    (hplace : c.place? d = some i) : c'.place? d = some i := by
  obtain ⟨rest, hrest⟩ := h
  unfold SignatureCache.place? at hplace ⊢
  rw [← hrest, List.findIdx?_append, hplace, Option.some_or]

theorem getElem?_later {c' : SignatureCache} (h : c.entries <+: c'.entries)
    (hs : c.entries[i]? = some s) : c'.entries[i]? = some s := by
  obtain ⟨rest, hrest⟩ := h
  rw [← hrest, List.getElem?_append_left (List.getElem?_eq_some_iff.1 hs).1, hs]

theorem find?_of_get {c' : SignatureCache} (hget : c.get d = .ok (s, c')) :
    c'.find? d = some s := by
  unfold SignatureCache.get at hget
  split at hget
  next s' hfind =>
    cases hget
    exact hfind
  next hfind =>
    split at hget
    · cases hget
    next s' hparse =>
      cases hget
      unfold SignatureCache.find? at hfind ⊢
      rw [List.find?_append, hfind, Option.none_or]
      exact List.find?_cons_of_pos (by rw [descriptor_of_parse hparse, beq_self_eq_true])

/-- What a request answered has a place, and stands in it after whatever requests. -/
theorem Faithful.get_afterAll (h : c.Faithful) {c' : SignatureCache}
    (hget : c.get d = .ok (s, c')) : ∃ i, ∀ ds : List String,
      (c'.afterAll ds).place? d = some i ∧ (c'.afterAll ds).entries[i]? = some s ∧
      (c'.afterAll ds).get d = .ok (s, c'.afterAll ds) := by
  obtain ⟨-, hfaithful⟩ := h.get hget
  obtain ⟨i, hplace, hs⟩ := find?_eq_some_iff.1 (find?_of_get hget)
  refine ⟨i, fun ds => ?_⟩
  have hinitial := hfaithful.entries_stay_afterAll ds
  have hplace' := place?_later hinitial hplace
  have hs' := getElem?_later hinitial hs
  refine ⟨hplace', hs', ?_⟩
  rw [SignatureCache.get, find?_eq_some_iff.2 ⟨i, hplace', hs'⟩]

/-! ### How many signatures are kept -/

/-- The descriptors whose signatures are kept. -/
def descriptors (c : SignatureCache) : List String := c.entries.map Signature.descriptor

/-- A request adds its own descriptor, if it is answered and the descriptor is new. -/
theorem Faithful.descriptors_after (h : c.Faithful) (d : String) :
    (c.get d).isOk = false ∧ (c.after d).descriptors = c.descriptors ∨
    (c.get d).isOk = true ∧ d ∈ c.descriptors ∧ (c.after d).descriptors = c.descriptors ∨
    (c.get d).isOk = true ∧ d ∉ c.descriptors ∧ (c.after d).descriptors = c.descriptors ++ [d] := by
  obtain ⟨e, -, hget, hafter⟩ | ⟨s, -, hmem, hd, hget, hafter⟩ | ⟨s, -, hd, hnew, hget, hafter⟩ :=
    h.after_cases d
  · exact .inl ⟨by rw [hget]; rfl, by rw [hafter]⟩
  · exact .inr (.inl ⟨by rw [hget]; rfl, List.mem_map.2 ⟨s, hmem, hd⟩, by rw [hafter]⟩)
  · have hnotMem : d ∉ c.descriptors := fun hmem => by
      obtain ⟨s', hs', hd'⟩ := List.mem_map.1 hmem
      exact hnew s' hs' hd'
    refine .inr (.inr ⟨by rw [hget]; rfl, hnotMem, ?_⟩)
    rw [hafter, descriptors, List.map_append, ← hd]
    rfl

theorem Faithful.nodup_afterAll (h : c.Faithful) (hc : c.descriptors.Nodup) (ds : List String) :
    (c.afterAll ds).descriptors.Nodup := by
  induction ds generalizing c with
  | nil => exact hc
  | cons d ds ih =>
    refine ih (h.after d) ?_
    obtain ⟨-, hd⟩ | ⟨-, -, hd⟩ | ⟨-, hnew, hd⟩ := h.descriptors_after d
    · rwa [hd]
    · rwa [hd]
    · rw [hd, ← List.concat_eq_append]
      exact (List.nodup_concat _ _).2 ⟨hnew, hc⟩

/-- What is kept in the end was there before or was asked for with success. -/
theorem Faithful.mem_descriptors_afterAll (h : c.Faithful) (ds : List String) :
    d ∈ (c.afterAll ds).descriptors ↔ d ∈ c.descriptors ∨ d ∈ c.answered ds := by
  induction ds generalizing c with
  | nil => simp [SignatureCache.afterAll, answered]
  | cons d' ds ih =>
    have hrest : d ∈ (c.afterAll (d' :: ds)).descriptors ↔
        d ∈ (c.after d').descriptors ∨ d ∈ (c.after d').answered ds := ih (h.after d')
    rw [hrest, answered]
    obtain ⟨hok, hd⟩ | ⟨hok, hmem, hd⟩ | ⟨hok, -, hd⟩ := h.descriptors_after d'
    · simp [hok, hd]
    · have hmem' : d = d' → d ∈ c.descriptors := fun heq => heq ▸ hmem
      rw [hd, if_pos hok, List.mem_cons]
      tauto
    · simp [hok, hd, or_assoc]

theorem size_eq (c : SignatureCache) : c.size = c.descriptors.length := by
  rw [size, descriptors, List.length_map]

/-- There are as many signatures as descriptors that were asked for with success. -/
theorem size_afterAll (ds : List String) :
    (empty.afterAll ds).size = (empty.answered ds).dedup.length := by
  have hnodup := faithful_empty.nodup_afterAll List.nodup_nil ds
  have hsame : ∀ d, d ∈ (empty.afterAll ds).descriptors ↔ d ∈ (empty.answered ds).dedup := by
    intro d
    rw [faithful_empty.mem_descriptors_afterAll, List.mem_dedup]
    simp [descriptors, empty]
  rw [size_eq]
  exact ((List.perm_ext_iff_of_nodup hnodup (List.nodup_dedup _)).2 hsame).length_eq

end SignatureCache

/-! ## Both caches -/

/-- Caches do not show.  Two calling conventions are written alike if and only if they have the same
kinds; after whatever calls by whatever threads, an interface that is found under the text of a
binding, and the one through which the binding is called, have exactly the types of the binding.
After whatever requests, a descriptor is answered as if it was read afresh; a signature that was
answered stays in its place and is answered from there ever after; a request that fails adds
nothing; and there are as many signatures as descriptors that were asked for with success. -/
theorem caches_transparent :
    (∀ s t : Signature, s.abi = t.abi ↔ s.params = t.params ∧ s.result = t.result) ∧
    (∀ (calls : List (ThreadId × Binding)) (t : ThreadId) (b : Binding),
      let exact : CallInterface := ⟨.pointer :: .pointer :: b.signature.params.map Kind.nativeType,
        b.signature.result.nativeType⟩
      (b.interface t (interfacesAfter calls)).1 = exact ∧
      ∀ i, (interfacesAfter calls t).find? b.abi = some i ↔ i = exact ∧
        ∃ called : Binding, (t, called) ∈ calls ∧ called.signature.params = b.signature.params ∧
          called.signature.result = b.signature.result) ∧
    ∀ requests : List String,
      let c := SignatureCache.empty.afterAll requests
      (∀ d, (c.get d).map Prod.fst = Signature.parse d) ∧
      (∀ d s c', c.get d = .ok (s, c') → ∃ i, ∀ later : List String,
        (c'.afterAll later).place? d = some i ∧ (c'.afterAll later).entries[i]? = some s ∧
        (c'.afterAll later).get d = .ok (s, c'.afterAll later)) ∧
      (∀ d e, Signature.parse d = .error e → c.after d = c) ∧
      c.size = (SignatureCache.empty.answered requests).dedup.length := by
  refine ⟨Signature.abi_eq_iff, fun calls t b => ⟨interface_interfacesAfter calls t b, fun i => ?_⟩,
    fun requests => ?_⟩
  · rw [find?_interfacesAfter]
    refine and_congr_right fun _ => exists_congr fun called => and_congr_right fun _ => ?_
    exact Signature.abi_eq_iff called.signature b.signature
  · have h := SignatureCache.faithful_empty.afterAll requests
    exact ⟨h.map_fst_get, fun d s c' hget => h.get_afterAll hget, fun d e => h.after_of_error,
      SignatureCache.size_afterAll requests⟩

end GuestBoundary
