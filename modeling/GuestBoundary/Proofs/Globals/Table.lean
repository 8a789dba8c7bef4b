import GuestBoundary.Handle.Globals
import Mathlib.Data.List.Nodup
import Mathlib.Tactic.ByContra
import Mathlib.Tactic.Tauto

/-!
# Tables of global references

A table of global references is looked at through the occupants that handles name (`occupant?`) and
the generations of its slots.  `Tidy` says that the free list names vacant slots, which holds of
every table that the operations make.  `WellFormed` says that it names all of them, so that
references and vacant slots together make up all slots; that holds until a slot runs out of
generations.
-/

namespace GuestBoundary.Globals

variable {α : Type} {t : Globals α} {h : Handle}

/-! ## The view -/

/-- The generation that a slot is in; a slot that was never in use is in its first. -/
def generationOf (t : Globals α) (i : Nat) : Nat := (t.slots[i]?.map (·.generation)).getD 0

/-- What a slot holds; a slot that was never in use is vacant. -/
def referentOf (t : Globals α) (i : Nat) : Referent α :=
  (t.slots[i]?.map (·.referent)).getD .vacant

theorem referentOf_eq_vacant_of_le {i : Nat} (hi : t.slots.size ≤ i) :
    t.referentOf i = .vacant := by
  rw [referentOf, Array.getElem?_eq_none hi]
  rfl

theorem kind_eq_invalid_iff (r : Referent α) : r.kind = .invalid ↔ r = .vacant := by
  cases r <;> simp [Referent.kind]

theorem occupant?_eq_some_iff {r : Referent α} :
    t.occupant? h = some r ↔
      t.generationOf h.index = h.generation ∧ t.referentOf h.index = r ∧
        r.kind = h.tag ∧ r ≠ .vacant := by
  unfold occupant? generationOf referentOf
  cases t.slots[h.index]? with
  | none =>
    simp only [reduceCtorEq, Option.map_none, Option.getD_none, false_iff, not_and]
    rintro - rfl - hne
    exact hne rfl
  | some slot =>
    simp only [Option.map_some, Option.getD_some]
    split
    next hc =>
      obtain ⟨hg, hk, hv⟩ := hc
      rw [Option.some.injEq]
      constructor
      · rintro rfl
        exact ⟨hg, rfl, hk, fun e => hv (hk ▸ (kind_eq_invalid_iff _).2 e)⟩
      · exact fun hr => hr.2.1
    next hc =>
      simp only [reduceCtorEq, false_iff]
      rintro ⟨hg, rfl, hk, hv⟩
      exact hc ⟨hg, hk, fun e => hv ((kind_eq_invalid_iff _).1 (hk.trans e))⟩

theorem isLive_iff : t.isLive h = true ↔ ∃ r, t.occupant? h = some r := Option.isSome_iff_exists

/-- Live handles of one slot are the same. -/
theorem eq_of_isLive_of_index_eq {h₁ h₂ : Handle} (h1 : t.isLive h₁ = true)
    (h2 : t.isLive h₂ = true) (hi : h₁.index = h₂.index) : h₁ = h₂ := by
  obtain ⟨r₁, h1⟩ := isLive_iff.1 h1
  obtain ⟨r₂, h2⟩ := isLive_iff.1 h2
  obtain ⟨hg1, hr1, hk1, -⟩ := occupant?_eq_some_iff.1 h1
  obtain ⟨hg2, hr2, hk2, -⟩ := occupant?_eq_some_iff.1 h2
  rw [← h₁.encode_fields, ← h₂.encode_fields, ← hg1, ← hg2, ← hk1, ← hk2, ← hr1, ← hr2, hi]

theorem lt_size_of_isLive (hl : t.isLive h = true) : h.index < t.slots.size := by
  obtain ⟨r, hr⟩ := isLive_iff.1 hl
  obtain ⟨-, hr, -, hv⟩ := occupant?_eq_some_iff.1 hr
  by_contra hi
  exact hv (hr ▸ referentOf_eq_vacant_of_le (by omega))

/-! ## Well-formed tables -/

/-- The free list names vacant slots, each once. -/
structure Tidy (t : Globals α) : Prop where
  generation_lt : ∀ i, t.generationOf i < Handle.generations
  free_nodup : t.free.Nodup
  vacant_of_mem_free : ∀ i ∈ t.free, i < t.slots.size ∧ t.referentOf i = .vacant

/-- How the parts of a table hang together, as long as no generation has run out. -/
structure WellFormed (t : Globals α) : Prop extends t.Tidy where
  limit_le : t.limit ≤ Handle.maxIndex
  live_le_limit : t.live ≤ t.limit
  size_le_limit : t.slots.size ≤ t.limit
  size_eq : t.slots.size = t.live + t.free.length

theorem tidy_empty (limit : Nat) : (empty limit : Globals α).Tidy where
  generation_lt := fun _ => Nat.succ_pos _
  free_nodup := List.nodup_nil
  vacant_of_mem_free := by simp [empty]

theorem wellFormed_empty (limit : Nat) : (empty limit : Globals α).WellFormed where
  toTidy := tidy_empty limit
  limit_le := Nat.min_le_right _ _
  live_le_limit := Nat.zero_le _
  size_le_limit := Nat.zero_le _
  size_eq := rfl

/-! ## Insertion -/

/-- The slot that the next reference takes, and the free list without it. -/
def vacancy (t : Globals α) : Nat × List Nat :=
  match t.free with
  | i :: free => (i, free)
  | [] => (t.slots.size, [])

/-- The table with an occupant in a vacant slot. -/
def fill (t : Globals α) (r : Referent α) : Globals α :=
  let (i, free) := t.vacancy
  let slots := if i < t.slots.size then t.slots.setIfInBounds i ⟨t.generationOf i, r⟩
    else t.slots.push ⟨0, r⟩
  { t with slots, free, live := t.live + 1 }

/-- The handle that the next reference of a sort gets. -/
def nextHandle (t : Globals α) (k : RefKind) : Handle :=
  .encode t.vacancy.1 (t.generationOf t.vacancy.1) k

theorem Tidy.insert_eq (tidy : t.Tidy) (r : Referent α) :
    t.insert r = if t.live ≥ t.limit then .error (.globalLimit t.limit)
      else .ok (t.nextHandle r.kind, t.fill r) := by
  unfold insert nextHandle fill vacancy
  split
  · rfl
  · cases hf : t.free with
    | nil => simp [generationOf]
    | cons i free =>
      have hi := (tidy.vacant_of_mem_free i (by rw [hf]; exact List.mem_cons_self)).1
      simp [hi, generationOf]

theorem Tidy.vacancy_le (tidy : t.Tidy) : t.vacancy.1 ≤ t.slots.size := by
  unfold vacancy
  split
  next i free hf => exact Nat.le_of_lt (tidy.vacant_of_mem_free i (by rw [hf]; simp)).1
  next => exact Nat.le_refl _

theorem WellFormed.vacancy_lt (wf : t.WellFormed) (hlim : t.live < t.limit) :
    t.vacancy.1 < t.limit := by
  have hsize := wf.size_le_limit
  have heq := wf.size_eq
  unfold vacancy
  split
  next i free hf =>
    have := (wf.vacant_of_mem_free i (by rw [hf]; simp)).1
    omega
  next hf =>
    rw [hf, List.length_nil] at heq
    dsimp only
    omega

theorem Tidy.vacancy_vacant (tidy : t.Tidy) : t.referentOf t.vacancy.1 = .vacant := by
  unfold vacancy
  split
  next i free hf => exact (tidy.vacant_of_mem_free i (by rw [hf]; simp)).2
  next => exact referentOf_eq_vacant_of_le (Nat.le_refl _)

section Fill

variable {r : Referent α}

@[simp] theorem fill_live : (t.fill r).live = t.live + 1 := rfl

@[simp] theorem fill_limit : (t.fill r).limit = t.limit := rfl

@[simp] theorem fill_free : (t.fill r).free = t.vacancy.2 := rfl

theorem Tidy.size_slots_fill (tidy : t.Tidy) :
    (t.fill r).slots.size = max t.slots.size (t.vacancy.1 + 1) := by
  have := tidy.vacancy_le
  simp only [fill]
  split
  · rw [Array.size_setIfInBounds]
    omega
  · rw [Array.size_push]
    omega

/-- A filled slot keeps its generation. -/
theorem Tidy.getElem?_slots_fill (tidy : t.Tidy) (j : Nat) :
    (t.fill r).slots[j]? =
      if j = t.vacancy.1 then some ⟨t.generationOf j, r⟩ else t.slots[j]? := by
  have hle := tidy.vacancy_le
  simp only [fill]
  by_cases hlt : t.vacancy.1 < t.slots.size
  · rw [if_pos hlt, Array.getElem?_setIfInBounds]
    by_cases hj : j = t.vacancy.1
    · subst hj
      simp [hlt]
    · simp [hj, Ne.symm hj]
  · have hi : t.vacancy.1 = t.slots.size := by omega
    rw [if_neg hlt, Array.getElem?_push, hi]
    by_cases hj : j = t.slots.size
    · subst hj
      simp [generationOf]
    · simp [hj]

theorem Tidy.generationOf_fill (tidy : t.Tidy) (j : Nat) :
    (t.fill r).generationOf j = t.generationOf j := by
  rw [generationOf, tidy.getElem?_slots_fill]
  split <;> rfl

theorem Tidy.referentOf_fill (tidy : t.Tidy) (j : Nat) :
    (t.fill r).referentOf j = if j = t.vacancy.1 then r else t.referentOf j := by
  rw [referentOf, tidy.getElem?_slots_fill]
  split <;> rfl

theorem Tidy.nodup_vacancy (tidy : t.Tidy) : t.vacancy.2.Nodup := by
  unfold vacancy
  split
  next i free hf => exact (List.nodup_cons.1 (hf ▸ tidy.free_nodup)).2
  next => exact List.nodup_nil

theorem Tidy.mem_vacancy (tidy : t.Tidy) {j : Nat} (hj : j ∈ t.vacancy.2) :
    j ∈ t.free ∧ j ≠ t.vacancy.1 := by
  unfold vacancy at hj ⊢
  split at hj
  next i free hf =>
    have hnd := List.nodup_cons.1 (hf ▸ tidy.free_nodup)
    rw [hf]
    refine ⟨List.mem_cons_of_mem _ hj, ?_⟩
    rintro rfl
    exact hnd.1 hj
  next => cases hj

theorem Tidy.fill (tidy : t.Tidy) (r : Referent α) : (t.fill r).Tidy where
  generation_lt := by
    intro i
    rw [tidy.generationOf_fill]
    exact tidy.generation_lt i
  free_nodup := tidy.nodup_vacancy
  vacant_of_mem_free := by
    intro i hi
    obtain ⟨hf, hne⟩ := tidy.mem_vacancy hi
    obtain ⟨hs, hv⟩ := tidy.vacant_of_mem_free i hf
    rw [tidy.size_slots_fill, tidy.referentOf_fill, if_neg hne]
    exact ⟨by omega, hv⟩

theorem WellFormed.fill (wf : t.WellFormed) (hlim : t.live < t.limit) (r : Referent α) :
    (t.fill r).WellFormed := by
  have hlt := wf.vacancy_lt hlim
  have hsize := wf.size_slots_fill (r := r)
  refine ⟨wf.toTidy.fill r, wf.limit_le, hlim, ?_, ?_⟩
  · have := wf.size_le_limit
    rw [hsize, fill_limit]
    omega
  · have heq := wf.size_eq
    rw [hsize, fill_live, fill_free]
    unfold vacancy
    split
    next i free hf =>
      have := (wf.vacant_of_mem_free i (by rw [hf]; exact List.mem_cons_self)).1
      rw [hf, List.length_cons] at heq
      dsimp only
      omega
    next hf =>
      rw [hf, List.length_nil] at heq
      dsimp only [List.length_nil]
      omega

end Fill

/-! ## Deletion -/

/-- The table with one slot released. -/
def vacate (t : Globals α) (i : Nat) : Globals α :=
  let generation := Handle.nextGeneration (t.generationOf i)
  { t with
    slots := t.slots.setIfInBounds i ⟨generation, .vacant⟩
    free := if generation = 0 then t.free else t.free ++ [i]
    live := t.live - 1 }

/-- What a handle that is not live was expected to be. -/
def expected (h : Handle) : String := if h.tag = .weakGlobal then "weak global" else "global"

theorem delete_eq (t : Globals α) (h : Handle) :
    t.delete h = if t.isLive h then .ok (t.vacate h.index)
      else .error (.invalidHandle h.raw (expected h)) := by
  unfold delete
  split
  next hl =>
    obtain ⟨r, hr⟩ := isLive_iff.1 hl
    rw [← (occupant?_eq_some_iff.1 hr).1]
    rfl
  next => rfl

section Vacate

variable {i : Nat}

@[simp] theorem vacate_live : (t.vacate i).live = t.live - 1 := rfl

@[simp] theorem vacate_limit : (t.vacate i).limit = t.limit := rfl

@[simp] theorem size_slots_vacate : (t.vacate i).slots.size = t.slots.size :=
  Array.size_setIfInBounds

theorem getElem?_slots_vacate (hi : i < t.slots.size) (j : Nat) :
    (t.vacate i).slots[j]? =
      if j = i then some ⟨Handle.nextGeneration (t.generationOf i), .vacant⟩ else t.slots[j]? := by
  simp only [vacate, Array.getElem?_setIfInBounds]
  by_cases hj : j = i
  · subst hj
    simp [hi]
  · simp [hj, Ne.symm hj]

theorem generationOf_vacate (hi : i < t.slots.size) (j : Nat) :
    (t.vacate i).generationOf j =
      if j = i then Handle.nextGeneration (t.generationOf i) else t.generationOf j := by
  rw [generationOf, getElem?_slots_vacate hi]
  split <;> rfl

theorem referentOf_vacate (hi : i < t.slots.size) (j : Nat) :
    (t.vacate i).referentOf j = if j = i then .vacant else t.referentOf j := by
  rw [referentOf, getElem?_slots_vacate hi]
  split <;> rfl

theorem lt_size_of_referentOf_ne (hv : t.referentOf i ≠ .vacant) : i < t.slots.size := by
  by_contra hi
  exact hv (referentOf_eq_vacant_of_le (by omega))

/-- Releasing a slot leaves the table tidy, also if the slot is not used again. -/
theorem Tidy.vacate (tidy : t.Tidy) (hv : t.referentOf i ≠ .vacant) : (t.vacate i).Tidy := by
  have hi := lt_size_of_referentOf_ne hv
  have hfree : i ∉ t.free := fun hf => hv (tidy.vacant_of_mem_free i hf).2
  constructor
  case generation_lt =>
    intro j
    rw [generationOf_vacate hi]
    split
    · exact Nat.mod_lt _ (by decide)
    · exact tidy.generation_lt j
  case free_nodup =>
    simp only [Globals.vacate]
    split
    · exact tidy.free_nodup
    · refine List.nodup_append.2 ⟨tidy.free_nodup, List.nodup_singleton i, ?_⟩
      rintro j hj k hk rfl
      rw [List.mem_singleton] at hk
      exact hfree (hk ▸ hj)
  case vacant_of_mem_free =>
    intro j hj
    rw [size_slots_vacate, referentOf_vacate hi]
    by_cases hji : j = i
    · exact ⟨hji ▸ hi, if_pos hji⟩
    · have hold : j ∈ t.free := by
        simp only [Globals.vacate] at hj
        split at hj
        · exact hj
        · simpa [hji] using hj
      rw [if_neg hji]
      exact tidy.vacant_of_mem_free j hold

theorem WellFormed.vacate (wf : t.WellFormed) (hv : t.referentOf i ≠ .vacant) (hlive : 0 < t.live)
    (hgen : t.generationOf i + 1 < Handle.generations) : (t.vacate i).WellFormed := by
  have hnext : Handle.nextGeneration (t.generationOf i) = t.generationOf i + 1 :=
    Nat.mod_eq_of_lt hgen
  have hfree : (t.vacate i).free = t.free ++ [i] := by
    simp only [Globals.vacate, hnext, Nat.succ_ne_zero, if_false]
  refine ⟨wf.toTidy.vacate hv, wf.limit_le, ?_, ?_, ?_⟩
  · have := wf.live_le_limit
    rw [vacate_live, vacate_limit]
    omega
  · rw [size_slots_vacate]
    exact wf.size_le_limit
  · have := wf.size_eq
    rw [size_slots_vacate, vacate_live, hfree, List.length_append, List.length_singleton]
    omega

end Vacate

/-! ## What handles name -/

theorem Tidy.occupant?_fill (tidy : t.Tidy) (hmax : t.vacancy.1 ≤ Handle.maxIndex)
    {r p : Referent α} (hr : r ≠ .vacant) :
    (t.fill r).occupant? h = some p ↔
      (h = t.nextHandle r.kind ∧ p = r) ∨ t.occupant? h = some p := by
  rw [occupant?_eq_some_iff, occupant?_eq_some_iff, tidy.generationOf_fill, tidy.referentOf_fill]
  by_cases hi : h.index = t.vacancy.1
  · rw [if_pos hi, hi, tidy.vacancy_vacant]
    constructor
    · rintro ⟨hg, rfl, hk, -⟩
      refine .inl ⟨?_, rfl⟩
      rw [nextHandle, ← hi, hi, hg, ← hi, hk, h.encode_fields]
    · rintro (⟨rfl, rfl⟩ | ⟨-, rfl, -, hv⟩)
      · exact ⟨(Handle.generation_encode hmax (tidy.generation_lt _) _).symm, rfl,
          (Handle.tag_encode hmax _).symm, hr⟩
      · exact absurd rfl hv
  · have hne : h ≠ t.nextHandle r.kind := by
      rintro rfl
      exact hi (Handle.index_encode hmax _)
    rw [if_neg hi]
    simp only [hne, false_and, false_or]

theorem WellFormed.vacancy_le_maxIndex (wf : t.WellFormed) (hlim : t.live < t.limit) :
    t.vacancy.1 ≤ Handle.maxIndex :=
  Nat.le_trans (Nat.le_of_lt (wf.vacancy_lt hlim)) wf.limit_le

theorem occupant?_vacate {h₀ : Handle} (hl : t.isLive h₀ = true) {p : Referent α} :
    (t.vacate h₀.index).occupant? h = some p ↔ t.occupant? h = some p ∧ h ≠ h₀ := by
  have hi := lt_size_of_isLive hl
  rw [occupant?_eq_some_iff, generationOf_vacate hi, referentOf_vacate hi]
  by_cases hix : h.index = h₀.index
  · rw [if_pos hix, if_pos hix]
    constructor
    · rintro ⟨-, rfl, -, hv⟩
      exact absurd rfl hv
    · rintro ⟨ho, hne⟩
      exact absurd (eq_of_isLive_of_index_eq (isLive_iff.2 ⟨p, ho⟩) hl hix) hne
  · have hne : h ≠ h₀ := fun e => hix (e ▸ rfl)
    rw [if_neg hix, if_neg hix, occupant?_eq_some_iff]
    simp [hne]

end GuestBoundary.Globals
