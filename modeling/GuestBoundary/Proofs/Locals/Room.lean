import GuestBoundary.Proofs.Locals.Nesting
import Mathlib.Order.Interval.Finset.Nat

/-!
# Room for local references

The slots that a frame can still use are those that no frame around it owns and that hold none of
its own references (`spare`); the frames above it give theirs back when they are closed.  An
operation takes at most one of them, and only by making a reference in that very frame
(`WellFormed.card_spare_le_perform`), so a reservation lasts until that many references are made
there (`reservations_kept`).

Room for a reservation is counted in slots behind all others.  Deleted slots of the innermost frame
are used again but not counted, so that a reservation may fail although the references could be
made (`ensure_fails_with_room_iff`).
-/

namespace GuestBoundary.Locals

variable {α : Type} {t : Locals α} {h : Handle}

/-! ## Spare slots -/

/-- The slots that the frame at a depth can use, once it is innermost. -/
def spare (t : Locals α) (d : Nat) : Finset Nat :=
  (Finset.range t.limit).filter fun i => d ≤ t.ownerOf i ∧ (t.ownerOf i = d → t.occupant? i = none)

theorem mem_spare {d i : Nat} : i ∈ t.spare d ↔
    i < t.limit ∧ d ≤ t.ownerOf i ∧ (t.ownerOf i = d → t.occupant? i = none) := by
  rw [spare, Finset.mem_filter, Finset.mem_range]

/-- The innermost frame can use its empty slots and the ones behind all slots. -/
theorem WellFormed.mem_spare_depth (wf : t.WellFormed) {i : Nat} : i ∈ t.spare t.depth ↔
    t.frame.mark ≤ i ∧ i < t.limit ∧ t.occupant? i = none := by
  have hown := wf.ownerOf_lt_depth_iff i
  have hle := t.ownerOf_le_depth i
  rw [mem_spare]
  constructor
  · rintro ⟨hlim, hd, hvac⟩
    exact ⟨by omega, hlim, hvac (by omega)⟩
  · rintro ⟨hm, hlim, hvac⟩
    exact ⟨hlim, by omega, fun _ => hvac⟩

theorem WellFormed.spare_depth (wf : t.WellFormed) :
    t.spare t.depth = t.free.toFinset ∪ Finset.Ico t.slots.size t.limit := by
  have hmark := wf.mark_le_size
  have hlimit := wf.size_le_limit
  ext i
  rw [wf.mem_spare_depth, Finset.mem_union, List.mem_toFinset, wf.mem_free, Finset.mem_Ico]
  constructor
  · rintro ⟨hm, hlim, hvac⟩
    by_cases hi : i < t.slots.size
    · exact .inl ⟨hm, hi, hvac⟩
    · exact .inr ⟨by omega, hlim⟩
  · rintro (⟨hm, hi, hvac⟩ | ⟨hi, hlim⟩)
    · exact ⟨hm, by omega, hvac⟩
    · exact ⟨by omega, hlim, occupant?_eq_none_of_le hi⟩

theorem WellFormed.card_spare_depth (wf : t.WellFormed) :
    (t.spare t.depth).card = t.free.length + (t.limit - t.slots.size) := by
  have hdisjoint : Disjoint t.free.toFinset (Finset.Ico t.slots.size t.limit) := by
    rw [Finset.disjoint_left]
    intro i hi hi'
    rw [List.mem_toFinset, wf.mem_free] at hi
    rw [Finset.mem_Ico] at hi'
    omega
  rw [wf.spare_depth, Finset.card_union_of_disjoint hdisjoint,
    List.toFinset_card_of_nodup wf.free_nodup, Nat.card_Ico]

/-! ## Creation -/

theorem WellFormed.vacancy?_eq_none_iff (wf : t.WellFormed) :
    t.vacancy? = none ↔ (t.spare t.depth).card = 0 := by
  rw [wf.card_spare_depth, vacancy?]
  cases hf : t.free with
  | cons i free => simp
  | nil =>
    have := wf.size_le_limit
    dsimp only
    split
    · simp only [List.length_nil, true_iff]
      omega
    · simp only [List.length_nil, reduceCtorEq, false_iff]
      omega

/-- A reference takes one of the slots that the innermost frame can use. -/
theorem WellFormed.card_spare_fill (wf : t.WellFormed) {i : Nat} {free : List Nat}
    (hv : t.vacancy? = some (i, free)) (o : α) :
    ((t.fill i free o).spare t.depth).card + 1 = (t.spare t.depth).card := by
  obtain ⟨hm, hi, hlim, hvac, -⟩ := wf.vacancy hv
  have hmem : i ∈ t.spare t.depth := wf.mem_spare_depth.2 ⟨hm, hlim, hvac⟩
  have herase : (t.fill i free o).spare t.depth = (t.spare t.depth).erase i := by
    ext j
    have hfill : j ∈ (t.fill i free o).spare t.depth ↔ _ := (wf.fill hv o).mem_spare_depth
    rw [hfill, Finset.mem_erase, wf.mem_spare_depth, occupant?_fill hi, fill_frame, fill_limit]
    by_cases hj : j = i
    · simp [hj]
    · simp [hj]
  rw [herase, Finset.card_erase_add_one hmem]

/-- A reference takes none of the slots that a frame around the innermost one can use. -/
theorem WellFormed.spare_fill_subset (wf : t.WellFormed) {i : Nat} {free : List Nat}
    (hv : t.vacancy? = some (i, free)) (o : α) {d : Nat} (hd : d < t.depth) :
    t.spare d ⊆ (t.fill i free o).spare d := by
  obtain ⟨hm, hi, -⟩ := wf.vacancy hv
  have hown := wf.ownerOf_eq_depth hm
  intro j hj
  rw [mem_spare] at hj ⊢
  have howner : (t.fill i free o).ownerOf j = t.ownerOf j := rfl
  refine ⟨hj.1, hj.2.1, fun hd' => ?_⟩
  rw [howner] at hd'
  rw [occupant?_fill hi, if_neg, hj.2.2 hd']
  rintro rfl
  omega

/-! ## What operations take -/

/-- Whether an operation is to make a reference in the frame at a depth. -/
def Makes (t : Locals α) (d : Nat) : Op α → Prop
  | .create o => o.isSome = true ∧ t.depth = d
  | .pop o => o.isSome = true ∧ t.depth = d + 1
  | _ => False

instance (t : Locals α) (d : Nat) : (op : Op α) → Decidable (t.Makes d op)
  | .create o => @instDecidableAnd _ _ (instDecidableEqBool o.isSome true) (Nat.decEq t.depth d)
  | .pop o => @instDecidableAnd _ _ (instDecidableEqBool o.isSome true) (Nat.decEq t.depth (d + 1))
  | .delete _ | .push _ | .ensure _ | .reset => instDecidableFalse

/-- How many references operations are to make in the frame at a depth. -/
def made (t : Locals α) (d : Nat) : List (Op α) → Nat
  | [] => 0
  | op :: ops => (if t.Makes d op then 1 else 0) + made (t.perform op).2 d ops

theorem WellFormed.card_spare_le_create (wf : t.WellFormed) {o : Option α} {t' : Locals α}
    (hc : t.create o = .ok (h, t')) {d : Nat} (hd : d ≤ t.depth) :
    (t.spare d).card ≤ (t'.spare d).card + if t.Makes d (.create o) then 1 else 0 := by
  cases o with
  | none =>
    cases hc
    exact Nat.le_add_right _ _
  | some o =>
    rw [create_some] at hc
    cases hv : t.vacancy? with
    | none =>
      rw [hv] at hc
      cases hc
    | some v =>
      rw [hv] at hc
      cases hc
      by_cases hin : t.depth = d
      · subst hin
        rw [if_pos ⟨rfl, rfl⟩, wf.card_spare_fill hv o]
      · exact Nat.le_add_right_of_le
          (Finset.card_le_card (wf.spare_fill_subset hv o (by omega)))

theorem spare_vacate_subset (i d : Nat) : t.spare d ⊆ (t.vacate i).spare d := by
  intro j hj
  rw [mem_spare] at hj ⊢
  have howner : (t.vacate i).ownerOf j = t.ownerOf j := by
    rw [ownerOf, ownerOf, vacate_frames]
  rw [vacate_limit, howner, occupant?_vacate]
  refine ⟨hj.1, hj.2.1, fun hd => ?_⟩
  split
  · rfl
  · exact hj.2.2 hd

theorem WellFormed.spare_opened_subset (wf : t.WellFormed) (n : Nat) {d : Nat} (hd : d ≤ t.depth) :
    t.spare d ⊆ (t.opened n).spare d := by
  intro i hi
  rw [mem_spare] at hi ⊢
  by_cases hsize : i < t.slots.size
  · rw [ownerOf_opened hsize]
    exact hi
  · have howner := (wf.opened n).ownerOf_eq_depth (i := i) (Nat.le_of_not_lt hsize)
    have hdepth : (t.opened n).depth = t.depth + 1 := rfl
    exact ⟨hi.1, by omega, by omega⟩

theorem spare_reserved (n d : Nat) : (t.reserved n).spare d = t.spare d := by
  ext i
  rw [mem_spare, mem_spare, ownerOf_reserved]
  rfl

theorem WellFormed.spare_closed_subset (wf : t.WellFormed) {frame : Frame} {outer : List Frame}
    (ho : t.outer = frame :: outer) {d : Nat} (hd : d ≤ (t.closed frame outer).depth) :
    t.spare d ⊆ (t.closed frame outer).spare d := by
  intro i hi
  rw [mem_spare] at hi ⊢
  rw [wf.occupant?_closed]
  by_cases hm : i < t.frame.mark
  · rw [ownerOf_closed ho hm, if_pos hm]
    exact hi
  · -- What the closed frame had belongs to the frame around it now.
    have hframe : frame.mark ≤ t.frame.mark := by
      apply wf.outer_mark_le
      rw [ho]
      exact List.mem_cons_self
    have howner := (wf.closed ho).ownerOf_eq_depth (i := i)
      (Nat.le_trans hframe (Nat.le_of_not_lt hm))
    rw [if_neg hm]
    exact ⟨hi.1, by omega, fun _ => rfl⟩

theorem WellFormed.spare_reset_subset (wf : t.WellFormed) {d : Nat} (hd : d ≤ t.reset.depth) :
    t.spare d ⊆ t.reset.spare d := by
  intro i hi
  rw [mem_spare] at hi ⊢
  have howner := wf.reset.ownerOf_eq_depth (i := i)
    (Nat.le_trans wf.reset.mark_le_size (Nat.zero_le _))
  exact ⟨hi.1, by omega, fun _ => reset_occupant? t i⟩

/-- An operation that leaves a frame open takes at most one of its slots, and only by making a
reference in it. -/
theorem WellFormed.card_spare_le_perform (wf : t.WellFormed) (op : Op α) {d : Nat}
    (hd : d ≤ t.depth) (hd' : d ≤ (t.perform op).2.depth) :
    (t.spare d).card ≤ ((t.perform op).2.spare d).card + if t.Makes d op then 1 else 0 := by
  cases op with
  | create o =>
    simp only [Locals.perform]
    cases hc : t.create o with
    | ok r => exact wf.card_spare_le_create hc hd
    | error e => exact Nat.le_add_right _ _
  | delete h =>
    simp only [Locals.perform, delete?_eq]
    by_cases hl : t.isLive h = true
    · rw [if_pos hl]
      exact Nat.le_add_right_of_le (Finset.card_le_card (spare_vacate_subset _ _))
    · rw [if_neg hl]
      exact Nat.le_add_right _ _
  | push n =>
    simp only [Locals.perform, push_eq]
    cases t.hasRoom n with
    | true => exact Nat.le_add_right_of_le (Finset.card_le_card (wf.spare_opened_subset n hd))
    | false => exact Nat.le_add_right _ _
  | ensure n =>
    simp only [Locals.perform, ensure_eq]
    cases t.hasRoom n with
    | true => exact Nat.le_add_right_of_le (Nat.le_of_eq (congrArg _ (spare_reserved n d).symm))
    | false => exact Nat.le_add_right _ _
  | pop result =>
    simp only [Locals.perform, pop?, close?_eq] at hd' ⊢
    cases ho : t.outer with
    | nil => exact Nat.le_add_right _ _
    | cons frame outer =>
      have hdepth : t.depth = (t.closed frame outer).depth + 1 := by
        rw [depth, ho]
        rfl
      have hmakes : t.Makes d (.pop result) ↔
          (t.closed frame outer).Makes d (.create result) := by
        simp only [Makes, hdepth, Nat.add_right_cancel_iff]
      rw [ho] at hd'
      simp only [Option.map_some, hmakes] at hd' ⊢
      cases hc : (t.closed frame outer).create result with
      | ok r =>
        rw [hc] at hd'
        have hd'' : d ≤ (t.closed frame outer).depth := hd'.trans_eq (depth_create hc)
        exact Nat.le_trans (Finset.card_le_card (wf.spare_closed_subset ho hd''))
          ((wf.closed ho).card_spare_le_create hc hd'')
      | error e =>
        rw [hc] at hd'
        exact Nat.le_add_right_of_le (Finset.card_le_card (wf.spare_closed_subset ho hd'))
  | reset => exact Nat.le_add_right_of_le (Finset.card_le_card (wf.spare_reset_subset hd'))

/-- Operations that leave a frame open take no more of its slots than they make references in
it. -/
theorem WellFormed.card_spare_le_after (wf : t.WellFormed) (ops : List (Op α)) {d : Nat}
    (hd : d ≤ t.lowest ops) :
    (t.spare d).card ≤ ((t.after ops).spare d).card + t.made d ops := by
  induction ops generalizing t with
  | nil => exact Nat.le_add_right _ _
  | cons op ops ih =>
    rw [lowest] at hd
    have hlow : d ≤ (t.perform op).2.lowest ops := by omega
    have hstep := wf.card_spare_le_perform op (d := d) (by omega)
      (Nat.le_trans hlow (lowest_le_depth _ _))
    have := ih (wf.perform op) hlow
    rw [after_cons, made]
    omega

/-! ## Reservations -/

/-- The innermost frame has room for more references: as long as it stays open and fewer than so
many were to be made in it, the next one is made, whatever else happens. -/
def Reserves (t : Locals α) (n : Nat) : Prop :=
  ∀ ops op, t.depth ≤ t.lowest (ops ++ [op]) → t.made t.depth ops < n →
    (t.after ops).Makes t.depth op →
      ∃ h, ((t.after ops).perform op).1 = .handle h ∧
        ((t.after ops).perform op).2.resolve h = op.object?

theorem WellFormed.create_ok (wf : t.WellFormed) (hspare : 0 < (t.spare t.depth).card) (o : α) :
    ∃ h t', t.create (some o) = .ok (h, t') ∧ t'.resolve h = some o := by
  rw [create_some]
  cases hv : t.vacancy? with
  | none =>
    have := wf.vacancy?_eq_none_iff.1 hv
    omega
  | some v =>
    obtain ⟨i, free⟩ := v
    have hgen := Nat.le_trans (wf.vacancy hv).2.1 wf.size_le_generations
    exact ⟨_, _, rfl, (wf.resolve_fill hv).2 (.inl ⟨handleAt_fill hgen, rfl⟩)⟩

theorem WellFormed.create_eq_error_iff (wf : t.WellFormed) (o : α) (e : AllocError) :
    t.create (some o) = .error e ↔ e = .localLimit t.limit ∧ (t.spare t.depth).card = 0 := by
  rw [create_some, ← wf.vacancy?_eq_none_iff]
  cases t.vacancy? with
  | none =>
    simp only [Except.error.injEq, and_true]
    exact eq_comm
  | some v => simp

/-- As many references can be made as there are slots to make them in. -/
theorem WellFormed.reserves (wf : t.WellFormed) {n : Nat} (hn : n ≤ (t.spare t.depth).card) :
    t.Reserves n := by
  intro ops op hlow hmade hmakes
  rw [lowest_append] at hlow
  have wf' := wf.after ops
  have hspare := wf.card_spare_le_after ops (d := t.depth) (by omega)
  have hleft : 0 < ((t.after ops).spare t.depth).card := by omega
  cases op with
  | create o =>
    obtain ⟨ho, hdepth⟩ := hmakes
    obtain ⟨o, rfl⟩ := Option.isSome_iff_exists.1 ho
    rw [← hdepth] at hleft
    obtain ⟨h, t', hc, hr⟩ := wf'.create_ok hleft o
    simp only [Locals.perform, hc]
    exact ⟨h, rfl, hr⟩
  | pop result =>
    obtain ⟨ho, hdepth⟩ := hmakes
    obtain ⟨o, rfl⟩ := Option.isSome_iff_exists.1 ho
    cases houter : (t.after ops).outer with
    | nil =>
      have := t.depth_pos
      rw [depth, houter, List.length_nil] at hdepth
      omega
    | cons frame outer =>
      have hclosed : ((t.after ops).closed frame outer).depth = t.depth := by
        rw [depth, houter, List.length_cons] at hdepth
        exact Nat.succ.inj hdepth
      have hkept := Finset.card_le_card (wf'.spare_closed_subset houter hclosed.ge)
      rw [← hclosed] at hleft hkept
      obtain ⟨h, t', hc, hr⟩ := (wf'.closed houter).create_ok (by omega) o
      simp only [Locals.perform, pop?, close?_eq, houter, Option.map_some, hc]
      exact ⟨h, rfl, hr⟩
  | delete h => exact hmakes.elim
  | push n => exact hmakes.elim
  | ensure n => exact hmakes.elim
  | reset => exact hmakes.elim

theorem WellFormed.reserves_of_room (wf : t.WellFormed) {n : Nat}
    (hroom : t.slots.size + n ≤ t.limit) : t.Reserves n := by
  apply wf.reserves
  rw [wf.card_spare_depth]
  omega

theorem hasRoom_iff {n : Nat} : t.hasRoom n = true ↔ t.slots.size + n ≤ t.limit :=
  decide_eq_true_iff

theorem push_eq_ok_iff {n : Nat} {t' : Locals α} :
    t.push n = .ok t' ↔ t.slots.size + n ≤ t.limit ∧ t' = t.opened n := by
  rw [push_eq, ← hasRoom_iff]
  split
  next hroom => simp [hroom, eq_comm]
  next hroom => simp [hroom]

theorem ensure_eq_ok_iff {n : Nat} {t' : Locals α} :
    t.ensure n = .ok t' ↔ t.slots.size + n ≤ t.limit ∧ t' = t.reserved n := by
  rw [ensure_eq, ← hasRoom_iff]
  split
  next hroom => simp [hroom, eq_comm]
  next hroom => simp [hroom]

theorem ensure_eq_error_iff {n : Nat} :
    t.ensure n = .error (.localLimit t.limit) ↔ t.limit < t.slots.size + n := by
  rw [ensure_eq, ← Nat.not_le, ← hasRoom_iff]
  split
  next hroom => simp [hroom]
  next hroom => simp [hroom]

/-- What reservations promise, and when something is refused. -/
structure KeepsReservations (t : Locals α) : Prop where
  push : ∀ n t', t.push n = .ok t' → t'.Reserves n
  ensure : ∀ n t', t.ensure n = .ok t' → t'.Reserves n
  /-- A reference is refused exactly if there are as many slots as there may be and none of those
  of the innermost frame is empty. -/
  create : ∀ o e, t.create o = .error e ↔
    e = .localLimit t.limit ∧ o.isSome = true ∧ t.slots.size = t.limit ∧
      ∀ i, t.frame.mark ≤ i → i < t.slots.size → (t.occupant? i).isSome = true
  refused : ∀ op, (t.perform op).1 = .refused → (t.perform op).2 = t

theorem WellFormed.card_spare_depth_eq_zero_iff (wf : t.WellFormed) :
    (t.spare t.depth).card = 0 ↔ t.slots.size = t.limit ∧
      ∀ i, t.frame.mark ≤ i → i < t.slots.size → (t.occupant? i).isSome = true := by
  have hlimit := wf.size_le_limit
  rw [wf.card_spare_depth]
  constructor
  · intro hzero
    have hfree : t.free = [] := List.length_eq_zero_iff.1 (by omega)
    refine ⟨by omega, fun i hm hi => ?_⟩
    by_contra hvac
    have := (wf.mem_free i).2 ⟨hm, hi, by simpa using hvac⟩
    rw [hfree] at this
    cases this
  · rintro ⟨hsize, hfull⟩
    have hfree : t.free = [] := by
      rw [List.eq_nil_iff_forall_not_mem]
      intro i hi
      obtain ⟨hm, hi, hvac⟩ := (wf.mem_free i).1 hi
      have := hfull i hm hi
      rw [hvac] at this
      cases this
    rw [hfree, List.length_nil]
    omega

/-- What is refused changes nothing. -/
theorem perform_eq_or_not_refused (t : Locals α) (op : Op α) :
    (t.perform op).2 = t ∨ (t.perform op).1 ≠ .refused := by
  unfold perform
  cases op with
  | pop result =>
    dsimp only
    rcases t.pop? result with _ | ⟨_ | _, _⟩
    · exact .inl rfl
    · exact .inr nofun
    · exact .inr nofun
  | reset => exact .inr nofun
  | _ =>
    dsimp only
    split
    · exact .inr nofun
    · exact .inl rfl

/-- Reservations are kept, whatever operations made the table. -/
theorem reservations_kept (limit : Nat) (ops : List (Op α)) :
    (History.run limit ops).table.KeepsReservations := by
  have wf : (History.run limit ops).table.WellFormed := Reachable.wellFormed ⟨limit, ops, rfl⟩
  constructor
  case push =>
    intro n t' hp
    obtain ⟨hroom, rfl⟩ := push_eq_ok_iff.1 hp
    exact (wf.opened n).reserves_of_room hroom
  case ensure =>
    intro n t' he
    obtain ⟨hroom, rfl⟩ := ensure_eq_ok_iff.1 he
    exact (wf.reserved n).reserves_of_room hroom
  case create =>
    intro o e
    cases o with
    | none => simp [create_none]
    | some o =>
      rw [wf.create_eq_error_iff, wf.card_spare_depth_eq_zero_iff]
      simp
  case refused => exact fun op hr => (perform_eq_or_not_refused _ op).resolve_right (absurd hr)

/-! ## Reservations that fail although there is room -/

/-- Makes references one after the other. -/
def createEach (t : Locals α) : List α → Except AllocError (Locals α)
  | [] => .ok t
  | o :: os =>
    match t.create (some o) with
    | .ok (_, t) => t.createEach os
    | .error e => .error e

/-- The references are made exactly if there are as many slots to make them in. -/
theorem WellFormed.createEach_eq_ok_iff (wf : t.WellFormed) (os : List α) :
    (∃ t', t.createEach os = .ok t') ↔ os.length ≤ (t.spare t.depth).card := by
  induction os generalizing t with
  | nil => simp [createEach]
  | cons o os ih =>
    rw [createEach, create_some]
    cases hv : t.vacancy? with
    | none =>
      rw [wf.vacancy?_eq_none_iff.1 hv]
      simp
    | some v =>
      have hfill := wf.card_spare_fill hv o
      have hdepth : (t.fill v.1 v.2 o).depth = t.depth := rfl
      simp only [ih (wf.fill hv o), hdepth, List.length_cons]
      omega

/-- A reservation fails although the references could be made exactly if they find room only with
the deleted slots of the innermost frame. -/
theorem ensure_fails_with_room_iff (limit : Nat) (ops : List (Op α)) (os : List α) :
    let t := (History.run limit ops).table
    ((∃ t', t.createEach os = .ok t') ∧ t.ensure os.length = .error (.localLimit t.limit)) ↔
      t.limit < t.slots.size + os.length ∧
        t.slots.size + os.length ≤ t.limit + t.free.length := by
  intro t
  have wf : t.WellFormed := Reachable.wellFormed ⟨limit, ops, rfl⟩
  have hlimit := wf.size_le_limit
  rw [wf.createEach_eq_ok_iff, wf.card_spare_depth, ensure_eq_error_iff]
  omega

/-- Of sixteen references the first is deleted: its slot would take a new one, but a reservation
for one fails. -/
theorem not_ensure_of_createEach :
    ¬ ∀ (limit : Nat) (ops : List (Op Nat)) (os : List Nat),
      (∃ t', (History.run limit ops).table.createEach os = .ok t') →
        ∃ t', (History.run limit ops).table.ensure os.length = .ok t' := by
  intro hall
  let ops : List (Op Nat) := List.replicate 16 (.create (some 0)) ++ [.delete (.encode 0 0 .local)]
  have hcreates : ((History.run 16 ops).table.createEach [1]).isOk = true := by decide +kernel
  have hensures : ((History.run 16 ops).table.ensure 1).isOk = false := by decide +kernel
  cases hc : (History.run 16 ops).table.createEach [1] with
  | error e =>
    rw [hc] at hcreates
    cases hcreates
  | ok t =>
    obtain ⟨t', ht'⟩ := hall 16 ops [1] ⟨t, hc⟩
    rw [List.length_singleton] at ht'
    rw [ht'] at hensures
    cases hensures

end GuestBoundary.Locals
