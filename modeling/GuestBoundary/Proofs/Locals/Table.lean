import GuestBoundary.Handle.Locals
import Mathlib.Data.List.Nodup
import Mathlib.Tactic.ByContra
import Mathlib.Tactic.Tauto

/-!
# Tables of local references

What the operations do to a table is said through a view: the object in a slot (`occupant?`), the
generation of a slot, the open frames (`frames`) and the number of slots.  `WellFormed` ties the
parts of a table together: marks descend from the slots to zero, a slot that was ever in use has a
generation, and the free list holds the empty slots of the innermost frame.  Every table that the
operations make of an empty one is well formed.
-/

namespace GuestBoundary.Locals

variable {α : Type} {t t' : Locals α} {h : Handle}

/-! ## The view -/

/-- The object in a slot. -/
def occupant? (t : Locals α) (i : Nat) : Option α := (t.slots[i]?).join

/-- The open frames, innermost first. -/
def frames (t : Locals α) : List Frame := t.frame :: t.outer

theorem depth_eq (t : Locals α) : t.depth = t.frames.length := rfl

theorem occupant?_eq_none_of_le {i : Nat} (hi : t.slots.size ≤ i) : t.occupant? i = none := by
  rw [occupant?, Array.getElem?_eq_none hi]
  rfl

theorem lt_of_occupant?_eq_some {i : Nat} {o : α} (ho : t.occupant? i = some o) :
    i < t.slots.size := by
  by_contra hi
  rw [occupant?_eq_none_of_le (by omega)] at ho
  cases ho

theorem isCurrent_iff (t : Locals α) (h : Handle) :
    t.isCurrent h = true ↔ h.tag = .local ∧ t.generations[h.index]? = some h.generation := by
  simp [isCurrent]

theorem resolve_eq_some_iff {o : α} :
    t.resolve h = some o ↔
      h.tag = .local ∧ t.generations[h.index]? = some h.generation ∧
        t.occupant? h.index = some o := by
  unfold resolve occupant?
  split
  next hc =>
    have := (isCurrent_iff t h).1 hc
    simp [this]
  next hc =>
    have := mt (isCurrent_iff t h).2 hc
    simp only [reduceCtorEq, false_iff]
    exact fun hs => this ⟨hs.1, hs.2.1⟩

theorem isLive_iff : t.isLive h = true ↔ ∃ o, t.resolve h = some o := Option.isSome_iff_exists

/-- A live handle is the one that its slot gives out. -/
theorem eq_handleAt (htag : h.tag = .local)
    (hgen : t.generations[h.index]? = some h.generation) : h = t.handleAt h.index := by
  rw [handleAt, hgen, Option.getD_some, ← htag, Handle.encode_fields]

@[simp] theorem getElem?_retire (generations : Array Nat) (start stop i : Nat) :
    (retire generations start stop)[i]? =
      if start ≤ i ∧ i < stop then generations[i]?.map Handle.nextGeneration
      else generations[i]? := by
  rw [retire, Array.getElem?_mapIdx]
  split
  · rfl
  · simp

theorem generation_lt_retire {generations : Array Nat}
    (hlt : ∀ i g : Nat, generations[i]? = some g → g < Handle.generations) (start stop : Nat)
    (i g : Nat) (hg : (retire generations start stop)[i]? = some g) : g < Handle.generations := by
  rw [getElem?_retire] at hg
  split at hg
  · obtain ⟨c, -, rfl⟩ := Option.map_eq_some_iff.1 hg
    exact Nat.mod_lt _ (by decide)
  · exact hlt i g hg

@[simp] theorem size_retire (generations : Array Nat) (start stop : Nat) :
    (retire generations start stop).size = generations.size := Array.size_mapIdx

/-! ## Well-formed tables -/

/-- How the parts of a table hang together. -/
structure WellFormed (t : Locals α) : Prop where
  limit_le : t.limit ≤ Handle.maxIndex
  size_le_limit : t.slots.size ≤ t.limit
  size_le_generations : t.slots.size ≤ t.generations.size
  generation_lt : ∀ i g : Nat, t.generations[i]? = some g → g < Handle.generations
  mark_le_size : t.frame.mark ≤ t.slots.size
  /-- A frame starts where the slots of the frames around it end. -/
  marks : t.frames.Pairwise fun inner outer => outer.mark ≤ inner.mark
  /-- The outermost frame starts with the first slot. -/
  root : (t.outer.getLastD t.frame).mark = 0
  free_nodup : t.free.Nodup
  mem_free : ∀ i, i ∈ t.free ↔
    t.frame.mark ≤ i ∧ i < t.slots.size ∧ t.occupant? i = none

theorem WellFormed.index_le (wf : t.WellFormed) {i : Nat} (hi : i < t.slots.size) :
    i ≤ Handle.maxIndex := by
  have := wf.limit_le
  have := wf.size_le_limit
  omega

theorem WellFormed.outer_mark_le (wf : t.WellFormed) {f : Frame} (hf : f ∈ t.outer) :
    f.mark ≤ t.frame.mark := (List.pairwise_cons.1 wf.marks).1 f hf

theorem wellFormed_empty (limit : Nat) : (empty limit : Locals α).WellFormed where
  limit_le := by simp only [empty, minLocals, Handle.maxIndex]; omega
  size_le_limit := Nat.zero_le _
  size_le_generations := Nat.le_refl _
  generation_lt := by simp [empty]
  mark_le_size := Nat.le_refl _
  marks := List.pairwise_singleton _ _
  root := rfl
  free_nodup := List.nodup_nil
  mem_free := by simp [empty]

/-! ## Creation -/

/-- The slot that the next reference takes, and the free list without it. -/
def vacancy? (t : Locals α) : Option (Nat × List Nat) :=
  match t.free with
  | i :: free => some (i, free)
  | [] => if t.slots.size ≥ t.limit then none else some (t.slots.size, [])

/-- The table with an object in a slot that is off the free list. -/
def fill (t : Locals α) (i : Nat) (free : List Nat) (o : α) : Locals α :=
  { t with free }.place i o

theorem create_some (t : Locals α) (o : α) :
    t.create (some o) =
      match t.vacancy? with
      | some (i, free) => .ok ((t.fill i free o).handleAt i, t.fill i free o)
      | none => .error (.localLimit t.limit) := by
  unfold create vacancy? fill
  cases hf : t.free with
  | cons i free => rfl
  | nil =>
    dsimp only
    split
    · rfl
    · simp only [← hf]

theorem create_none (t : Locals α) : t.create none = .ok (.null, t) := rfl

section Fill

variable {i : Nat} {free : List Nat} {o : α}

@[simp] theorem fill_frame : (t.fill i free o).frame = t.frame := rfl

@[simp] theorem fill_frames : (t.fill i free o).frames = t.frames := rfl

@[simp] theorem fill_limit : (t.fill i free o).limit = t.limit := rfl

@[simp] theorem fill_free : (t.fill i free o).free = free := rfl

theorem size_slots_fill (hi : i ≤ t.slots.size) :
    (t.fill i free o).slots.size = max t.slots.size (i + 1) := by
  simp only [fill, place]
  split
  · rw [Array.size_setIfInBounds]
    omega
  · rw [Array.size_push]
    omega

theorem occupant?_fill (hi : i ≤ t.slots.size) (j : Nat) :
    (t.fill i free o).occupant? j = if j = i then some o else t.occupant? j := by
  simp only [occupant?, fill, place]
  by_cases hlt : i < t.slots.size
  · rw [if_pos hlt, Array.getElem?_setIfInBounds]
    by_cases hj : i = j
    · subst hj
      simp [hlt]
    · simp [hj, Ne.symm hj]
  · have : i = t.slots.size := by omega
    subst this
    rw [if_neg hlt, Array.getElem?_push]
    by_cases hj : j = t.slots.size <;> simp [hj]

theorem getElem?_generations_fill (hi : i ≤ t.generations.size) (j : Nat) :
    (t.fill i free o).generations[j]? =
      if j = i then some (t.generations[i]?.getD 0) else t.generations[j]? := by
  simp only [fill, place]
  by_cases hlt : i < t.generations.size
  · rw [if_pos hlt]
    by_cases hj : j = i
    · subst hj
      simp [hlt]
    · simp [hj]
  · have : i = t.generations.size := by omega
    subst this
    rw [if_neg hlt, Array.getElem?_push]
    by_cases hj : j = t.generations.size <;> simp [hj]

theorem handleAt_fill (hi : i ≤ t.generations.size) :
    (t.fill i free o).handleAt i = t.handleAt i := by
  unfold handleAt
  rw [getElem?_generations_fill hi, if_pos rfl, Option.getD_some]

end Fill

/-- The next reference goes into an empty slot of the innermost frame or behind all slots. -/
theorem WellFormed.vacancy (wf : t.WellFormed) {i : Nat} {free : List Nat}
    (hv : t.vacancy? = some (i, free)) :
    t.frame.mark ≤ i ∧ i ≤ t.slots.size ∧ i < t.limit ∧ t.occupant? i = none ∧
      free.Nodup ∧ ∀ j, j ∈ free ↔ j ∈ t.free ∧ j ≠ i := by
  unfold vacancy? at hv
  split at hv
  next j rest hf =>
    obtain ⟨rfl, rfl⟩ : j = i ∧ rest = free := by simpa using hv
    obtain ⟨hm, hlt, ho⟩ := (wf.mem_free j).1 (by rw [hf]; exact List.mem_cons_self)
    have hnd := wf.free_nodup
    rw [hf, List.nodup_cons] at hnd
    have := wf.size_le_limit
    refine ⟨hm, by omega, by omega, ho, hnd.2, fun k => ?_⟩
    rw [hf, List.mem_cons]
    constructor
    · intro hk
      exact ⟨.inr hk, fun e => hnd.1 (e ▸ hk)⟩
    · rintro ⟨rfl | hk, hne⟩
      · exact absurd rfl hne
      · exact hk
  next hf =>
    split at hv
    · cases hv
    next hlt =>
      obtain ⟨rfl, rfl⟩ : t.slots.size = i ∧ [] = free := by simpa using hv
      have := wf.mark_le_size
      refine ⟨this, Nat.le_refl _, by omega, occupant?_eq_none_of_le (Nat.le_refl _),
        List.nodup_nil, fun k => ?_⟩
      simp [hf]

theorem WellFormed.fill (wf : t.WellFormed) {i : Nat} {free : List Nat}
    (hv : t.vacancy? = some (i, free)) (o : α) : (t.fill i free o).WellFormed := by
  obtain ⟨hm, hi, hlim, hvac, hnd, hfree⟩ := wf.vacancy hv
  have hgen : i ≤ t.generations.size := Nat.le_trans hi wf.size_le_generations
  have hsize : (t.fill i free o).slots.size = max t.slots.size (i + 1) := size_slots_fill hi
  constructor
  case limit_le => exact wf.limit_le
  case size_le_limit =>
    have := wf.size_le_limit
    rw [hsize, fill_limit]
    omega
  case size_le_generations =>
    have := wf.size_le_generations
    rw [hsize]
    simp only [Locals.fill, place]
    split
    · omega
    · rw [Array.size_push]
      omega
  case generation_lt =>
    intro j g hg
    rw [getElem?_generations_fill hgen] at hg
    split at hg
    · obtain rfl := Option.some.inj hg
      rcases hc : t.generations[i]? with _ | c
      · exact Nat.succ_pos _
      · exact wf.generation_lt i c hc
    · exact wf.generation_lt j g hg
  case mark_le_size =>
    have := wf.mark_le_size
    rw [hsize, fill_frame]
    omega
  case marks => exact wf.marks
  case root => exact wf.root
  case free_nodup => exact hnd
  case mem_free =>
    intro j
    rw [fill_free, hfree, wf.mem_free, hsize, fill_frame, occupant?_fill hi]
    by_cases hj : j = i
    · simp [hj]
    · simp only [hj, if_false, ne_eq, not_false_eq_true, and_true]
      constructor
      · rintro ⟨h1, h2, h3⟩
        exact ⟨h1, by omega, h3⟩
      · rintro ⟨h1, h2, h3⟩
        exact ⟨h1, by omega, h3⟩

/-! ## Deletion -/

/-- The table with one slot released. -/
def vacate (t : Locals α) (i : Nat) : Locals α :=
  let generations := retire t.generations i (i + 1)
  if i < t.frame.mark then { t with slots := t.slots.setIfInBounds i none, generations }
  else if i + 1 = t.slots.size then { t with slots := t.slots.pop, generations }
  else { t with slots := t.slots.setIfInBounds i none, generations, free := i :: t.free }

theorem delete?_eq (t : Locals α) (h : Handle) :
    t.delete? h = if t.isLive h then some (t.vacate h.index) else none := by
  unfold delete? vacate
  split
  · dsimp only
    split
    · rfl
    · split <;> rfl
  · rfl

section Vacate

variable {i : Nat}

/-- What releasing a slot changes: the slots, their generations and the free list. -/
theorem exists_vacate_eq : ∃ slots free, t.vacate i =
    { t with slots, free, generations := retire t.generations i (i + 1) } := by
  unfold vacate
  dsimp only
  split
  · exact ⟨_, _, rfl⟩
  · split <;> exact ⟨_, _, rfl⟩

@[simp] theorem vacate_frame : (t.vacate i).frame = t.frame := by
  obtain ⟨_, _, h⟩ := exists_vacate_eq (t := t) (i := i)
  rw [h]

@[simp] theorem vacate_outer : (t.vacate i).outer = t.outer := by
  obtain ⟨_, _, h⟩ := exists_vacate_eq (t := t) (i := i)
  rw [h]

@[simp] theorem vacate_frames : (t.vacate i).frames = t.frames := by
  simp [frames]

@[simp] theorem vacate_limit : (t.vacate i).limit = t.limit := by
  obtain ⟨_, _, h⟩ := exists_vacate_eq (t := t) (i := i)
  rw [h]

@[simp] theorem vacate_generations :
    (t.vacate i).generations = retire t.generations i (i + 1) := by
  obtain ⟨_, _, h⟩ := exists_vacate_eq (t := t) (i := i)
  rw [h]

theorem size_slots_vacate (i : Nat) : (t.vacate i).slots.size =
    if t.frame.mark ≤ i ∧ i + 1 = t.slots.size then i else t.slots.size := by
  unfold vacate
  dsimp only
  by_cases hm : i < t.frame.mark
  · rw [if_pos hm, if_neg (by omega), Array.size_setIfInBounds]
  · rw [if_neg hm]
    by_cases hs : i + 1 = t.slots.size
    · rw [if_pos hs, if_pos (by omega), Array.size_pop]
      omega
    · rw [if_neg hs, if_neg (by omega), Array.size_setIfInBounds]

theorem occupant?_vacate (i j : Nat) :
    (t.vacate i).occupant? j = if j = i then none else t.occupant? j := by
  have hset : ((t.slots.setIfInBounds i none)[j]?).join =
      if j = i then none else (t.slots[j]?).join := by
    rw [Array.getElem?_setIfInBounds]
    by_cases hj : j = i
    · subst hj
      by_cases hlt : j < t.slots.size <;> simp [hlt]
    · simp [hj, Ne.symm hj]
  unfold occupant? vacate
  dsimp only
  by_cases hm : i < t.frame.mark
  · rw [if_pos hm]
    exact hset
  · rw [if_neg hm]
    by_cases hs : i + 1 = t.slots.size
    · rw [if_pos hs, Array.getElem?_pop]
      by_cases hj : j < t.slots.size - 1
      · rw [if_pos hj, if_neg (by omega)]
      · rw [if_neg hj]
        by_cases hji : j = i
        · rw [if_pos hji]
          rfl
        · rw [if_neg hji, Array.getElem?_eq_none (by omega)]
    · rw [if_neg hs]
      exact hset

theorem mem_free_vacate (i j : Nat) : j ∈ (t.vacate i).free ↔
    j ∈ t.free ∨ (j = i ∧ t.frame.mark ≤ i ∧ i + 1 ≠ t.slots.size) := by
  unfold vacate
  dsimp only
  by_cases hm : i < t.frame.mark
  · rw [if_pos hm]
    constructor
    · exact .inl
    · rintro (hj | ⟨-, hle, -⟩)
      · exact hj
      · omega
  · rw [if_neg hm]
    by_cases hs : i + 1 = t.slots.size
    · rw [if_pos hs]
      simp [hs]
    · rw [if_neg hs]
      have : t.frame.mark ≤ i := by omega
      simp [hs, this, or_comm]

end Vacate

theorem WellFormed.vacate (wf : t.WellFormed) {i : Nat} {o : α} (ho : t.occupant? i = some o) :
    (t.vacate i).WellFormed := by
  have hi := lt_of_occupant?_eq_some ho
  have hsize := size_slots_vacate (t := t) i
  have hnotFree : i ∉ t.free := by
    intro hf
    have := ((wf.mem_free i).1 hf).2.2
    rw [ho] at this
    cases this
  constructor
  case limit_le => simpa using wf.limit_le
  case size_le_limit =>
    have := wf.size_le_limit
    rw [hsize, vacate_limit]
    split <;> omega
  case size_le_generations =>
    have := wf.size_le_generations
    rw [hsize, vacate_generations, size_retire]
    split <;> omega
  case generation_lt =>
    rw [vacate_generations]
    exact generation_lt_retire wf.generation_lt _ _
  case mark_le_size =>
    have := wf.mark_le_size
    rw [hsize, vacate_frame]
    split <;> omega
  case marks => simpa using wf.marks
  case root => simpa using wf.root
  case free_nodup =>
    unfold Locals.vacate
    dsimp only
    split
    · exact wf.free_nodup
    · split
      · exact wf.free_nodup
      · exact List.nodup_cons.2 ⟨hnotFree, wf.free_nodup⟩
  case mem_free =>
    intro j
    rw [mem_free_vacate, wf.mem_free, hsize, vacate_frame, occupant?_vacate]
    by_cases hj : j = i
    · subst hj
      simp only [ho, reduceCtorEq, and_false, true_and, false_or, if_true, and_true]
      split <;> omega
    · simp only [hj, false_and, or_false, if_false]
      constructor
      · rintro ⟨h1, h2, h3⟩
        refine ⟨h1, ?_, h3⟩
        split <;> omega
      · rintro ⟨h1, h2, h3⟩
        refine ⟨h1, ?_, h3⟩
        split at h2 <;> omega

/-! ## Frames -/

/-- The table with one more frame. -/
def opened (t : Locals α) (capacity : Nat) : Locals α :=
  { t with free := [], frame := ⟨t.slots.size, capacity⟩, outer := t.frame :: t.outer }

/-- The table with room reserved in its innermost frame. -/
def reserved (t : Locals α) (capacity : Nat) : Locals α :=
  { t with frame := { t.frame with capacity := max t.frame.capacity capacity } }

/-- The table without its innermost frame, where `frame` and `outer` are the ones around it. -/
def closed (t : Locals α) (frame : Frame) (outer : List Frame) : Locals α :=
  let slots := t.slots.extract 0 t.frame.mark
  { t with
    slots
    generations := retire t.generations t.frame.mark t.slots.size
    free := emptySlots slots frame.mark
    frame
    outer }

theorem push_eq (t : Locals α) (capacity : Nat) :
    t.push capacity =
      if t.hasRoom capacity then .ok (t.opened capacity) else .error (.localLimit t.limit) := rfl

theorem ensure_eq (t : Locals α) (capacity : Nat) :
    t.ensure capacity =
      if t.hasRoom capacity then .ok (t.reserved capacity) else .error (.localLimit t.limit) := rfl

theorem close?_eq (t : Locals α) :
    t.close? = match t.outer with
      | [] => none
      | frame :: outer => some (t.closed frame outer) := rfl

theorem mem_emptySlots (slots : Array (Option α)) (mark i : Nat) :
    i ∈ emptySlots slots mark ↔ mark ≤ i ∧ i < slots.size ∧ (slots[i]?).join = none := by
  have hjoin : ∀ x : Option (Option α), (x.getD none).isNone = true ↔ x.join = none := by
    rintro (_ | _ | _) <;> simp
  simp only [emptySlots, List.mem_reverse, List.mem_filter, List.mem_range, Bool.and_eq_true,
    decide_eq_true_eq, hjoin]
  tauto

theorem nodup_emptySlots (slots : Array (Option α)) (mark : Nat) :
    (emptySlots slots mark).Nodup :=
  List.nodup_reverse.2 (List.nodup_range.filter _)

@[simp] theorem opened_frames (t : Locals α) (n : Nat) :
    (t.opened n).frames = ⟨t.slots.size, n⟩ :: t.frames := rfl

@[simp] theorem opened_slots (t : Locals α) (n : Nat) : (t.opened n).slots = t.slots := rfl

@[simp] theorem reserved_outer (t : Locals α) (n : Nat) : (t.reserved n).outer = t.outer := rfl

theorem WellFormed.opened (wf : t.WellFormed) (n : Nat) : (t.opened n).WellFormed where
  limit_le := wf.limit_le
  size_le_limit := wf.size_le_limit
  size_le_generations := wf.size_le_generations
  generation_lt := wf.generation_lt
  mark_le_size := Nat.le_refl _
  marks := by
    refine List.pairwise_cons.2 ⟨fun f hf => ?_, wf.marks⟩
    rcases List.mem_cons.1 hf with rfl | hf
    · exact wf.mark_le_size
    · exact Nat.le_trans (wf.outer_mark_le hf) wf.mark_le_size
  root := by
    show ((t.frame :: t.outer).getLastD _).mark = 0
    rw [List.getLastD_cons]
    exact wf.root
  free_nodup := List.nodup_nil
  mem_free := by
    intro i
    simp only [Locals.opened, List.not_mem_nil, false_iff]
    omega

theorem WellFormed.reserved (wf : t.WellFormed) (n : Nat) : (t.reserved n).WellFormed where
  limit_le := wf.limit_le
  size_le_limit := wf.size_le_limit
  size_le_generations := wf.size_le_generations
  generation_lt := wf.generation_lt
  mark_le_size := wf.mark_le_size
  marks := List.pairwise_cons.2 ⟨fun _ hf => wf.outer_mark_le hf, (List.pairwise_cons.1 wf.marks).2⟩
  root := by
    have := wf.root
    rcases ho : t.outer with _ | ⟨f, fs⟩
    · simpa [Locals.reserved, ho] using this
    · rw [ho, List.getLastD_cons] at this
      rwa [reserved_outer, ho, List.getLastD_cons]
  free_nodup := wf.free_nodup
  mem_free := wf.mem_free

section Closed

variable {frame : Frame} {outer : List Frame}

@[simp] theorem closed_limit : (t.closed frame outer).limit = t.limit := rfl

@[simp] theorem closed_generations :
    (t.closed frame outer).generations = retire t.generations t.frame.mark t.slots.size := rfl

theorem WellFormed.size_slots_closed (wf : t.WellFormed) :
    (t.closed frame outer).slots.size = t.frame.mark := by
  have := wf.mark_le_size
  simp only [Locals.closed, Array.size_extract]
  omega

theorem WellFormed.occupant?_closed (wf : t.WellFormed) (i : Nat) :
    (t.closed frame outer).occupant? i = if i < t.frame.mark then t.occupant? i else none := by
  have := wf.mark_le_size
  simp only [occupant?, Locals.closed, Array.getElem?_extract]
  by_cases hi : i < t.frame.mark
  · rw [if_pos (by omega), if_pos hi, Nat.zero_add]
  · rw [if_neg (by omega), if_neg hi]
    rfl

theorem WellFormed.closed (wf : t.WellFormed) (ho : t.outer = frame :: outer) :
    (t.closed frame outer).WellFormed := by
  have hsize : (t.closed frame outer).slots.size = t.frame.mark := wf.size_slots_closed
  have hmarks := wf.marks
  rw [frames, ho, List.pairwise_cons] at hmarks
  constructor
  case limit_le => exact wf.limit_le
  case size_le_limit =>
    have := wf.mark_le_size
    have := wf.size_le_limit
    rw [hsize, closed_limit]
    omega
  case size_le_generations =>
    have := wf.mark_le_size
    have := wf.size_le_generations
    rw [hsize, closed_generations, size_retire]
    omega
  case generation_lt => exact generation_lt_retire wf.generation_lt _ _
  case mark_le_size =>
    rw [hsize]
    exact hmarks.1 frame List.mem_cons_self
  case marks => exact hmarks.2
  case root =>
    have := wf.root
    rwa [ho, List.getLastD_cons] at this
  case free_nodup => exact nodup_emptySlots _ _
  case mem_free => exact fun i => mem_emptySlots _ _ i

end Closed

/-! ## Reset -/

@[simp] theorem reset_frames (t : Locals α) :
    t.reset.frames = [t.outer.getLastD t.frame] := rfl

@[simp] theorem reset_occupant? (t : Locals α) (i : Nat) : t.reset.occupant? i = none :=
  occupant?_eq_none_of_le (Nat.zero_le _)

theorem WellFormed.reset (wf : t.WellFormed) : t.reset.WellFormed where
  limit_le := wf.limit_le
  size_le_limit := Nat.zero_le _
  size_le_generations := Nat.zero_le _
  generation_lt := generation_lt_retire wf.generation_lt _ _
  mark_le_size := Nat.le_of_eq wf.root
  marks := List.pairwise_singleton _ _
  root := wf.root
  free_nodup := List.nodup_nil
  mem_free := by simp [Locals.reset]

/-! ## What handles stand for -/

/-- The live handle of a slot is unique. -/
theorem eq_of_isLive_of_index_eq {h₁ h₂ : Handle} (h1 : t.isLive h₁ = true)
    (h2 : t.isLive h₂ = true) (hi : h₁.index = h₂.index) : h₁ = h₂ := by
  obtain ⟨_, h1⟩ := isLive_iff.1 h1
  obtain ⟨_, h2⟩ := isLive_iff.1 h2
  obtain ⟨ht1, hg1, -⟩ := resolve_eq_some_iff.1 h1
  obtain ⟨ht2, hg2, -⟩ := resolve_eq_some_iff.1 h2
  rw [eq_handleAt ht1 hg1, eq_handleAt ht2 hg2, hi]

theorem isLive_of_resolve {o : α} (ho : t.resolve h = some o) : t.isLive h = true :=
  isLive_iff.2 ⟨o, ho⟩

theorem WellFormed.resolve_fill (wf : t.WellFormed) {i : Nat} {free : List Nat}
    (hv : t.vacancy? = some (i, free)) {o p : α} :
    (t.fill i free o).resolve h = some p ↔
      (h = t.handleAt i ∧ p = o) ∨ t.resolve h = some p := by
  obtain ⟨-, hi, hlim, hvac, -⟩ := wf.vacancy hv
  have hgen : i ≤ t.generations.size := Nat.le_trans hi wf.size_le_generations
  have hmax : i ≤ Handle.maxIndex := Nat.le_trans (Nat.le_of_lt hlim) wf.limit_le
  rw [resolve_eq_some_iff, resolve_eq_some_iff, getElem?_generations_fill hgen, occupant?_fill hi]
  by_cases hix : h.index = i
  · simp only [hix, if_true, hvac, reduceCtorEq, and_false, or_false, Option.some.injEq]
    constructor
    · rintro ⟨htag, hg, rfl⟩
      refine ⟨?_, rfl⟩
      rw [← h.encode_fields, htag, hix, handleAt, hg]
    · rintro ⟨rfl, rfl⟩
      refine ⟨Handle.tag_encode hmax _, ?_, rfl⟩
      refine (Handle.generation_encode hmax ?_ _).symm
      rcases hg : t.generations[i]? with _ | g
      · exact Nat.succ_pos _
      · exact wf.generation_lt i g hg
  · have hne : h ≠ t.handleAt i := by
      rintro rfl
      exact hix (Handle.index_encode hmax _)
    simp only [hix, if_false, hne, false_and, false_or]

theorem resolve_vacate {h₀ : Handle} (hl : t.isLive h₀ = true) {p : α} :
    (t.vacate h₀.index).resolve h = some p ↔ t.resolve h = some p ∧ h ≠ h₀ := by
  rw [resolve_eq_some_iff, occupant?_vacate, vacate_generations, getElem?_retire]
  by_cases hix : h.index = h₀.index
  · simp only [hix, if_true, reduceCtorEq, and_false, false_iff, not_and, not_not]
    intro hr
    exact eq_of_isLive_of_index_eq (isLive_of_resolve hr) hl hix
  · have hne : h ≠ h₀ := fun e => hix (e ▸ rfl)
    rw [if_neg (by omega), if_neg hix, resolve_eq_some_iff]
    simp [hne]

@[simp] theorem resolve_opened (n : Nat) : (t.opened n).resolve h = t.resolve h := rfl

@[simp] theorem resolve_reserved (n : Nat) : (t.reserved n).resolve h = t.resolve h := rfl

theorem WellFormed.resolve_closed (wf : t.WellFormed) {frame : Frame} {outer : List Frame} {p : α} :
    (t.closed frame outer).resolve h = some p ↔
      t.resolve h = some p ∧ h.index < t.frame.mark := by
  rw [resolve_eq_some_iff, resolve_eq_some_iff, wf.occupant?_closed, closed_generations,
    getElem?_retire]
  by_cases hlt : h.index < t.frame.mark
  · rw [if_neg (by omega), if_pos hlt]
    simp [hlt]
  · simp [hlt]

@[simp] theorem resolve_reset : t.reset.resolve h = none := by
  rw [Option.eq_none_iff_forall_ne_some]
  intro o ho
  have := (resolve_eq_some_iff.1 ho).2.2
  rw [reset_occupant?] at this
  cases this

end GuestBoundary.Locals
