import GuestBoundary.Heap.Basic
import Mathlib.Tactic.ByContra

/-!
# Which objects are still there

The objects that are still there are the largest set each of whose members a root or a member refers
to (`Heap.isAlive_iff`).  So an object is there exactly if something refers to it that is there
itself (`Heap.isAlive_iff_referred`), and what is gone stays gone as long as nothing new refers to
it (`Heap.isAlive_of_isAlive`).
-/

namespace GuestBoundary.Heap

variable {h h' : Heap} {roots roots' kept : List ObjectRef} {o : ObjectRef} {rounds : Nat}

/-! ## Dropping objects until none is left to drop -/

/-- Something refers to the object, a root or one of the kept objects. -/
def Referred (h : Heap) (roots : List ObjectRef) (kept : ObjectRef → Prop) (o : ObjectRef) : Prop :=
  o ∈ roots ∨ ∃ y, kept y ∧ o ∈ (h.get y).references

theorem mem_targets : o ∈ h.targets roots kept ↔ h.Referred roots (· ∈ kept) o := by
  simp [targets, Referred]

theorem settle_subset (hx : o ∈ h.settle roots rounds kept) : o ∈ kept := by
  induction rounds generalizing kept with
  | zero => exact hx
  | succ rounds ih =>
    rw [settle] at hx
    split at hx
    · exact hx
    · exact (List.mem_filter.1 (ih hx)).1

/-- Nothing is left to drop, if there are as many rounds as objects. -/
theorem referred_of_mem_settle (hrounds : kept.length ≤ rounds)
    (hx : o ∈ h.settle roots rounds kept) :
    h.Referred roots (· ∈ h.settle roots rounds kept) o := by
  induction rounds generalizing kept with
  | zero =>
    rw [List.length_eq_zero_iff.1 (Nat.le_zero.1 hrounds)] at hx
    cases hx
  | succ rounds ih =>
    rw [settle] at hx ⊢
    split at hx
    next hlen =>
      rw [if_pos hlen]
      have hall := List.length_filter_eq_length_iff.1 hlen o hx
      rw [List.contains_iff_mem] at hall
      exact mem_targets.1 hall
    next hlen =>
      rw [if_neg hlen]
      have := List.length_filter_le (fun o => (h.targets roots kept).contains o) kept
      exact ih (by omega) hx

/-- A set whose members are all referred to is never dropped. -/
theorem mem_settle_of_referred {S : ObjectRef → Prop} (hS : ∀ x, S x → h.Referred roots S x)
    (hkept : ∀ x, S x → x ∈ kept) (ho : S o) : o ∈ h.settle roots rounds kept := by
  induction rounds generalizing kept with
  | zero => exact hkept o ho
  | succ rounds ih =>
    rw [settle]
    split
    · exact hkept o ho
    · apply ih
      intro x hx
      refine List.mem_filter.2 ⟨hkept x hx, ?_⟩
      rw [List.contains_iff_mem, mem_targets]
      exact (hS x hx).imp id fun ⟨y, hy, hxy⟩ => ⟨y, hkept y hy, hxy⟩

/-! ## Survivors -/

theorem mem_all_iff : o ∈ (List.range h.size).map ObjectRef.mk ↔ o.index < h.size := by
  rw [List.mem_map]
  constructor
  · rintro ⟨i, hi, rfl⟩
    exact List.mem_range.1 hi
  · exact fun ho => ⟨o.index, List.mem_range.2 ho, rfl⟩

theorem isAlive_eq_true_iff : h.isAlive roots o = true ↔ o ∈ h.survivors roots :=
  List.contains_iff_mem

theorem lt_size_of_isAlive (ho : h.isAlive roots o = true) : o.index < h.size :=
  mem_all_iff.1 (settle_subset (isAlive_eq_true_iff.1 ho))

/-- The objects that are still there are referred to, by a root or by one of them. -/
theorem referred_of_isAlive (ho : h.isAlive roots o = true) :
    h.Referred roots (h.isAlive roots · = true) o := by
  have hlength : ((List.range h.size).map ObjectRef.mk).length ≤ h.size := by simp
  refine (referred_of_mem_settle hlength (isAlive_eq_true_iff.1 ho)).imp id ?_
  exact fun ⟨y, hy, hoy⟩ => ⟨y, isAlive_eq_true_iff.2 hy, hoy⟩

/-- They are the largest set of objects of which that can be said. -/
theorem isAlive_of_referred {S : ObjectRef → Prop} (hS : ∀ x, S x → h.Referred roots S x)
    (hsize : ∀ x, S x → x.index < h.size) (ho : S o) : h.isAlive roots o = true :=
  isAlive_eq_true_iff.2 (mem_settle_of_referred hS (fun x hx => mem_all_iff.2 (hsize x hx)) ho)

theorem isAlive_iff : h.isAlive roots o = true ↔
    ∃ S : ObjectRef → Prop, S o ∧ ∀ x, S x → x.index < h.size ∧ h.Referred roots S x := by
  constructor
  · intro ho
    exact ⟨(h.isAlive roots · = true), ho, fun x hx =>
      ⟨lt_size_of_isAlive hx, referred_of_isAlive hx⟩⟩
  · rintro ⟨S, ho, hS⟩
    exact isAlive_of_referred (fun x hx => (hS x hx).2) (fun x hx => (hS x hx).1) ho

/-- An object is there exactly if a root refers to it, or an object that is there. -/
theorem isAlive_iff_referred : h.isAlive roots o = true ↔
    o.index < h.size ∧ h.Referred roots (h.isAlive roots · = true) o := by
  refine ⟨fun ho => ⟨lt_size_of_isAlive ho, referred_of_isAlive ho⟩, fun ⟨hsize, ho⟩ => ?_⟩
  refine isAlive_of_referred (S := fun x => x = o ∨ h.isAlive roots x = true) ?_ ?_ (.inl rfl)
  · intro x hx
    have hreferred : h.Referred roots (h.isAlive roots · = true) x := by
      rcases hx with rfl | hx
      · exact ho
      · exact referred_of_isAlive hx
    exact hreferred.imp id fun ⟨y, hy, hxy⟩ => ⟨y, .inr hy, hxy⟩
  · rintro x (rfl | hx)
    · exact hsize
    · exact lt_size_of_isAlive hx

theorem isAlive_of_mem_roots (hsize : o.index < h.size) (ho : o ∈ roots) :
    h.isAlive roots o = true := isAlive_iff_referred.2 ⟨hsize, .inl ho⟩

theorem lt_size_of_mem_references {x : ObjectRef} (hx : x ∈ (h.get o).references) :
    o.index < h.size := by
  by_contra ho
  rw [get, Array.getElem?_eq_none (Nat.le_of_not_lt ho)] at hx
  cases hx

/-- What is gone stays gone: whatever is referred to later was there, or is new. -/
theorem isAlive_of_isAlive
    (hroots : ∀ x ∈ roots', x.index < h.size → h.isAlive roots x = true)
    (hreferences : ∀ y, ∀ x ∈ (h'.get y).references, x.index < h.size →
      x ∈ (h.get y).references ∨ h.isAlive roots x = true)
    (hsize : o.index < h.size) (ho : h'.isAlive roots' o = true) : h.isAlive roots o = true := by
  refine isAlive_of_referred (S := fun x => x.index < h.size ∧
    (h'.isAlive roots' x = true ∨ h.isAlive roots x = true)) ?_ (fun x hx => hx.1)
      ⟨hsize, .inl ho⟩
  -- Each member is referred to by another one, or was there before.
  have hbefore : ∀ x, h.isAlive roots x = true → h.Referred roots (fun x => x.index < h.size ∧
      (h'.isAlive roots' x = true ∨ h.isAlive roots x = true)) x := by
    intro x hx
    refine (referred_of_isAlive hx).imp id ?_
    exact fun ⟨y, hy, hxy⟩ => ⟨y, ⟨lt_size_of_isAlive hy, .inr hy⟩, hxy⟩
  rintro x ⟨hx, halive | hbefore'⟩
  · rcases referred_of_isAlive halive with hroot | ⟨y, hy, hxy⟩
    · exact hbefore x (hroots x hroot hx)
    · rcases hreferences y x hxy hx with hxy | hbefore'
      · exact .inr ⟨y, ⟨lt_size_of_mem_references hxy, .inl hy⟩, hxy⟩
      · exact hbefore x hbefore'
  · exact hbefore x hbefore'

theorem isAlive_congr (hroots : ∀ x, x ∈ roots ↔ x ∈ roots') :
    h.isAlive roots o = h.isAlive roots' o := by
  rw [Bool.eq_iff_iff, isAlive_iff, isAlive_iff]
  simp only [Referred, hroots]

end GuestBoundary.Heap
