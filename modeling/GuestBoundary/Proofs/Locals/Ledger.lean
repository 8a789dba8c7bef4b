import GuestBoundary.Proofs.Locals.Table
import Mathlib.Data.List.Induction
import Mathlib.Tactic.Tauto

/-!
# The life of a local reference

A `Ledger` says which references a table should hold: for each its handle, its object and the depth
of the frame that owns it.  Making a reference enters it for the innermost frame; deleting it,
closing its frame and a reset strike it out; nothing else touches it.  `History.run` performs
operations in any order on an empty table and keeps the ledger next to it.  As long as no slot has
been released as often as there are generations, the table holds what the ledger says
(`Consistent`), and no handle is given out twice.
-/

namespace GuestBoundary.Locals

variable {α : Type}

/-! ## Operations -/

/-- What the owner of a table may ask for. -/
inductive Op (α : Type) where
  | create (object : Option α)
  | delete (h : Handle)
  | push (capacity : Nat)
  | ensure (capacity : Nat)
  | pop (result : Option α)
  | reset

/-- What the owner gets to know. -/
inductive Answer where
  /-- The handle of a new reference, or null. -/
  | handle (h : Handle)
  | done
  /-- The frame is closed, but its result found no room. -/
  | unplaced
  /-- Nothing has changed. -/
  | refused

/-- Performs an operation. -/
def perform (t : Locals α) : Op α → Answer × Locals α
  | .create o =>
    match t.create o with
    | .ok (h, t) => (.handle h, t)
    | .error _ => (.refused, t)
  | .delete h =>
    match t.delete? h with
    | some t => (.done, t)
    | none => (.refused, t)
  | .push n =>
    match t.push n with
    | .ok t => (.done, t)
    | .error _ => (.refused, t)
  | .ensure n =>
    match t.ensure n with
    | .ok t => (.done, t)
    | .error _ => (.refused, t)
  | .pop result =>
    match t.pop? result with
    | some (.ok h, t) => (.handle h, t)
    | some (.error _, t) => (.unplaced, t)
    | none => (.refused, t)
  | .reset => (.done, t.reset)

/-- Whether an operation releases a slot: a deletion that of its handle, the end of a frame all
slots from its mark on, a reset every slot. -/
def Releases (t : Locals α) (i : Nat) : Op α → Prop
  | .delete h => t.isLive h = true ∧ h.index = i
  | .pop _ => t.outer ≠ [] ∧ t.frame.mark ≤ i ∧ i < t.slots.size
  | .reset => i < t.slots.size
  | _ => False

instance (t : Locals α) (i : Nat) (op : Op α) : Decidable (t.Releases i op) := by
  cases op <;> unfold Releases <;> infer_instance

/-! ## Ledgers -/

/-- A reference that a table should hold. -/
structure Reference (α : Type) where
  handle : Handle
  object : α
  /-- The depth of the frame that it belongs to; the outermost frame has depth one. -/
  owner : Nat

/-- What a table should hold. -/
structure Ledger (α : Type) where
  /-- The number of open frames. -/
  depth : Nat
  live : List (Reference α)
  /-- Every handle that was given out, null apart, the last one first. -/
  issued : List Handle

namespace Ledger

/-- The handles of the references. -/
def handles (l : Ledger α) : List Handle := l.live.map Reference.handle

/-- Enters a new reference for the innermost frame. -/
def own (l : Ledger α) (h : Handle) (o : α) : Ledger α :=
  { l with live := ⟨h, o, l.depth⟩ :: l.live, issued := h :: l.issued }

/-- Strikes out a reference. -/
def strike (l : Ledger α) (h : Handle) : Ledger α :=
  { l with live := l.live.filter fun r => r.handle ≠ h }

/-- Strikes out what the innermost frame owns. -/
def close (l : Ledger α) : Ledger α :=
  { l with depth := l.depth - 1, live := l.live.filter fun r => r.owner < l.depth }

/-- Enters what an operation with an answer does. -/
def note (l : Ledger α) : Op α → Answer → Ledger α
  | .create (some o), .handle h => l.own h o
  | .delete h, .done => l.strike h
  | .push _, .done => { l with depth := l.depth + 1 }
  | .pop (some o), .handle h => l.close.own h o
  | .pop none, .handle _ => l.close
  | .pop _, .unplaced => l.close
  | .reset, .done => { l with depth := 1, live := [] }
  | _, _ => l

end Ledger

/-! ## Histories -/

/-- A table after some operations, with its ledger. -/
structure History (α : Type) where
  table : Locals α
  ledger : Ledger α
  /-- How often each slot was released. -/
  released : Nat → Nat

namespace History

/-- An empty table. -/
def start (limit : Nat) : History α := ⟨empty limit, ⟨1, [], []⟩, fun _ => 0⟩

/-- Performs one more operation. -/
def step (s : History α) (op : Op α) : History α :=
  let (answer, table) := s.table.perform op
  ⟨table, s.ledger.note op answer,
    fun i => s.released i + if s.table.Releases i op then 1 else 0⟩

/-- Performs operations in order on an empty table. -/
def run (limit : Nat) (ops : List (Op α)) : History α := ops.foldl step (start limit)

theorem run_append (limit : Nat) (before after : List (Op α)) :
    run limit (before ++ after) = after.foldl step (run limit before) :=
  List.foldl_append

theorem run_concat (limit : Nat) (ops : List (Op α)) (op : Op α) :
    run limit (ops ++ [op]) = (run limit ops).step op := run_append limit ops [op]

theorem released_le_step (s : History α) (op : Op α) (i : Nat) :
    s.released i ≤ (s.step op).released i := Nat.le_add_right _ _

theorem released_le_foldl (ops : List (Op α)) (s : History α) (i : Nat) :
    s.released i ≤ (ops.foldl step s).released i := by
  induction ops generalizing s with
  | nil => exact Nat.le_refl _
  | cons op ops ih => exact Nat.le_trans (released_le_step s op i) (ih _)

/-- An operation releases a slot at most once. -/
theorem released_run_le_length (limit : Nat) (ops : List (Op α)) (i : Nat) :
    (run limit ops).released i ≤ ops.length := by
  induction ops using List.reverseRecOn with
  | nil => exact Nat.le_refl _
  | append_singleton ops op ih =>
    have : ((run limit ops).step op).released i ≤ (run limit ops).released i + 1 := by
      refine Nat.add_le_add_left ?_ _
      split <;> omega
    rw [run_concat, List.length_append, List.length_singleton]
    omega

end History

/-! ## Owners -/

/-- The depth of the frame that a slot belongs to. -/
def ownerOf (t : Locals α) (i : Nat) : Nat := t.frames.countP fun f => f.mark ≤ i

variable {t : Locals α} {h : Handle}

theorem WellFormed.ownerOf_eq_depth (wf : t.WellFormed) {i : Nat} (hi : t.frame.mark ≤ i) :
    t.ownerOf i = t.depth := by
  rw [ownerOf, depth_eq, List.countP_eq_length]
  intro f hf
  rcases List.mem_cons.1 hf with rfl | hf
  · simpa using hi
  · have := wf.outer_mark_le hf
    simp only [decide_eq_true_eq]
    omega

theorem ownerOf_eq_countP_outer {i : Nat} (hi : i < t.frame.mark) :
    t.ownerOf i = t.outer.countP fun f => f.mark ≤ i := by
  rw [ownerOf, frames, List.countP_cons_of_neg]
  simpa using hi

theorem WellFormed.ownerOf_lt_depth_iff (wf : t.WellFormed) (i : Nat) :
    t.ownerOf i < t.depth ↔ i < t.frame.mark := by
  constructor
  · intro hlt
    by_contra hi
    have := wf.ownerOf_eq_depth (i := i) (by omega)
    omega
  · intro hi
    rw [ownerOf_eq_countP_outer hi, depth]
    exact Nat.lt_succ_of_le List.countP_le_length

theorem ownerOf_opened {i n : Nat} (hi : i < t.slots.size) :
    (t.opened n).ownerOf i = t.ownerOf i := by
  rw [ownerOf_eq_countP_outer (t := t.opened n) hi]
  rfl

theorem ownerOf_reserved (n i : Nat) : (t.reserved n).ownerOf i = t.ownerOf i := by
  simp only [ownerOf, frames, List.countP_cons]
  rfl

theorem ownerOf_closed {frame : Frame} {outer : List Frame} (ho : t.outer = frame :: outer)
    {i : Nat} (hi : i < t.frame.mark) : (t.closed frame outer).ownerOf i = t.ownerOf i := by
  rw [ownerOf_eq_countP_outer hi, ho]
  rfl

/-! ## Handles of slots -/

theorem handleAt_tag {i : Nat} (hi : i ≤ Handle.maxIndex) : (t.handleAt i).tag = .local :=
  Handle.tag_encode hi _

theorem handleAt_index {i : Nat} (hi : i ≤ Handle.maxIndex) : (t.handleAt i).index = i :=
  Handle.index_encode hi _

theorem WellFormed.handleAt_generation (wf : t.WellFormed) {i : Nat} (hi : i ≤ Handle.maxIndex) :
    (t.handleAt i).generation = t.generations[i]?.getD 0 := by
  refine Handle.generation_encode hi ?_ _
  rcases hg : t.generations[i]? with _ | g
  · exact Nat.succ_pos _
  · exact wf.generation_lt i g hg

/-! ## Tables that hold what their ledger says -/

/-- A table holds what its ledger says, and every slot has been released as often as its
generation counts.  A handle that was given out stands for a reference or is of an earlier
generation. -/
structure Consistent (s : History α) : Prop where
  wellFormed : s.table.WellFormed
  generation : ∀ i : Nat, s.table.generations[i]?.getD 0 = s.released i
  depth : s.ledger.depth = s.table.depth
  live : ∀ r, r ∈ s.ledger.live ↔
    s.table.resolve r.handle = some r.object ∧ r.owner = s.table.ownerOf r.handle.index
  handles_nodup : s.ledger.handles.Nodup
  issued_nodup : s.ledger.issued.Nodup
  issued_of_live : ∀ h ∈ s.ledger.handles, h ∈ s.ledger.issued
  stale : ∀ h ∈ s.ledger.issued,
    h ∈ s.ledger.handles ∨ h.generation < s.released h.index

namespace Consistent

variable {s : History α}

theorem mem_handles_iff (c : Consistent s) (h : Handle) :
    h ∈ s.ledger.handles ↔ s.table.isLive h = true := by
  rw [isLive_iff, Ledger.handles, List.mem_map]
  constructor
  · rintro ⟨r, hr, rfl⟩
    exact ⟨r.object, ((c.live r).1 hr).1⟩
  · rintro ⟨o, ho⟩
    exact ⟨⟨h, o, s.table.ownerOf h.index⟩, (c.live _).2 ⟨ho, rfl⟩, rfl⟩

theorem lt_size_of_mem_handles (c : Consistent s) {h : Handle} (hh : h ∈ s.ledger.handles) :
    h.index < s.table.slots.size := by
  obtain ⟨o, ho⟩ := isLive_iff.1 ((c.mem_handles_iff h).1 hh)
  exact lt_of_occupant?_eq_some (resolve_eq_some_iff.1 ho).2.2

/-- The handle that an empty slot would give out was never given out before. -/
theorem handleAt_not_mem_issued (c : Consistent s) {i : Nat} (hi : i ≤ Handle.maxIndex)
    (hv : s.table.occupant? i = none) : s.table.handleAt i ∉ s.ledger.issued := by
  intro hmem
  rcases c.stale _ hmem with hlive | hlt
  · obtain ⟨o, ho⟩ := isLive_iff.1 ((c.mem_handles_iff _).1 hlive)
    have := (resolve_eq_some_iff.1 ho).2.2
    rw [handleAt_index hi, hv] at this
    cases this
  · rw [c.wellFormed.handleAt_generation hi, handleAt_index hi, c.generation] at hlt
    omega

/-- A handle that was given out and stands for no reference is of an earlier generation. -/
theorem generation_lt_of_not_live (c : Consistent s) {h : Handle} (hi : h ∈ s.ledger.issued)
    (hl : h ∉ s.ledger.handles) : h.generation < s.released h.index :=
  (c.stale h hi).resolve_left hl

theorem not_live_of_generation_lt (c : Consistent s) {h : Handle}
    (hg : h.generation < s.released h.index) : s.table.isLive h = false := by
  rw [Bool.eq_false_iff]
  intro hl
  obtain ⟨o, ho⟩ := isLive_iff.1 hl
  have := c.generation h.index
  rw [(resolve_eq_some_iff.1 ho).2.1, Option.getD_some] at this
  omega

theorem start (limit : Nat) : Consistent (History.start limit : History α) where
  wellFormed := wellFormed_empty limit
  generation := by simp [History.start, empty]
  depth := rfl
  live := by
    intro r
    simp [History.start, resolve_eq_some_iff, occupant?, empty]
  handles_nodup := List.nodup_nil
  issued_nodup := List.nodup_nil
  issued_of_live := by simp [History.start, Ledger.handles]
  stale := by simp [History.start]

/-! ### What one operation preserves -/

/-- Moving generations on counts one more release. -/
theorem getD_retire {generations : Array Nat} {released : Nat → Nat}
    (hgen : ∀ i : Nat, generations[i]?.getD 0 = released i) {start stop : Nat}
    (hstop : stop ≤ generations.size) {i : Nat} {released' : Nat}
    (hr : released' = released i + if start ≤ i ∧ i < stop then 1 else 0)
    (hlt : released' < Handle.generations) :
    (retire generations start stop)[i]?.getD 0 = released' := by
  rw [getElem?_retire, hr]
  split
  next hi =>
    rw [if_pos hi] at hr
    have hg := hgen i
    rw [Array.getElem?_eq_getElem (by omega), Option.getD_some] at hg
    rw [Array.getElem?_eq_getElem (by omega), Option.map_some, Option.getD_some, hg,
      Handle.nextGeneration, Nat.mod_eq_of_lt (by omega)]
  next => exact hgen i

theorem own (c : Consistent s) {i : Nat} {free : List Nat}
    (hv : s.table.vacancy? = some (i, free)) (o : α) :
    Consistent ⟨s.table.fill i free o, s.ledger.own (s.table.handleAt i) o, s.released⟩ := by
  obtain ⟨hm, hi, hlim, hvac, -⟩ := c.wellFormed.vacancy hv
  have hmax : i ≤ Handle.maxIndex := Nat.le_trans (Nat.le_of_lt hlim) c.wellFormed.limit_le
  have hgen : i ≤ s.table.generations.size :=
    Nat.le_trans hi c.wellFormed.size_le_generations
  have hfresh := c.handleAt_not_mem_issued hmax hvac
  constructor
  case wellFormed => exact c.wellFormed.fill hv o
  case generation =>
    intro j
    rw [getElem?_generations_fill hgen]
    split
    next hj => rw [Option.getD_some, hj, c.generation]
    next => exact c.generation j
  case depth => exact c.depth
  case live =>
    rintro ⟨h, p, d⟩
    have hown : (s.table.fill i free o).ownerOf h.index = s.table.ownerOf h.index := rfl
    rw [c.wellFormed.resolve_fill hv, hown, Ledger.own, List.mem_cons, c.live, Reference.mk.injEq]
    have hdepth := c.wellFormed.ownerOf_eq_depth hm
    constructor
    · rintro (⟨rfl, rfl, rfl⟩ | ⟨hr, hd⟩)
      · exact ⟨.inl ⟨rfl, rfl⟩, by rw [handleAt_index hmax, hdepth, c.depth]⟩
      · exact ⟨.inr hr, hd⟩
    · rintro ⟨⟨rfl, rfl⟩ | hr, hd⟩
      · refine .inl ⟨rfl, rfl, ?_⟩
        rw [show d = s.table.ownerOf _ from hd, handleAt_index hmax, hdepth, c.depth]
      · exact .inr ⟨hr, hd⟩
  case handles_nodup =>
    exact List.nodup_cons.2 ⟨fun hm => hfresh (c.issued_of_live _ hm), c.handles_nodup⟩
  case issued_nodup => exact List.nodup_cons.2 ⟨hfresh, c.issued_nodup⟩
  case issued_of_live =>
    intro h hh
    rcases List.mem_cons.1 hh with rfl | hh
    · exact List.mem_cons_self
    · exact List.mem_cons_of_mem _ (c.issued_of_live h hh)
  case stale =>
    intro h hh
    rcases List.mem_cons.1 hh with rfl | hh
    · exact .inl List.mem_cons_self
    · exact (c.stale h hh).imp (List.mem_cons_of_mem _) id

theorem generation_eq_of_live (c : Consistent s) {r : Reference α} (hr : r ∈ s.ledger.live) :
    r.handle.generation = s.released r.handle.index := by
  have hg := (resolve_eq_some_iff.1 ((c.live r).1 hr).1).2.1
  rw [← c.generation, hg, Option.getD_some]

/-- The ledger may strike out references whose slots the table has released. -/
theorem drop (c : Consistent s) {table : Locals α} {depth : Nat} {released : Nat → Nat}
    (keep : Reference α → Bool) (wellFormed : table.WellFormed)
    (generation : ∀ i : Nat, table.generations[i]?.getD 0 = released i)
    (hdepth : depth = table.depth)
    (live : ∀ r, r ∈ s.ledger.live ∧ keep r = true ↔
      table.resolve r.handle = some r.object ∧ r.owner = table.ownerOf r.handle.index)
    (grows : ∀ i, s.released i ≤ released i)
    (stale : ∀ r ∈ s.ledger.live, keep r = false →
      s.released r.handle.index < released r.handle.index) :
    Consistent ⟨table, ⟨depth, s.ledger.live.filter keep, s.ledger.issued⟩, released⟩ := by
  constructor
  case wellFormed => exact wellFormed
  case generation => exact generation
  case depth => exact hdepth
  case live => exact fun r => List.mem_filter.trans (live r)
  case handles_nodup => exact c.handles_nodup.sublist (List.filter_sublist.map _)
  case issued_nodup => exact c.issued_nodup
  case issued_of_live =>
    intro h hh
    exact c.issued_of_live h ((List.filter_sublist.map _).subset hh)
  case stale =>
    intro h hh
    rcases c.stale h hh with hl | hlt
    · obtain ⟨r, hr, rfl⟩ := List.mem_map.1 hl
      cases hk : keep r with
      | true => exact .inl (List.mem_map_of_mem (List.mem_filter.2 ⟨hr, hk⟩))
      | false =>
        right
        rw [c.generation_eq_of_live hr]
        exact stale r hr hk
    · exact .inr (Nat.lt_of_lt_of_le hlt (grows _))

theorem strike (c : Consistent s) {h : Handle} (hl : s.table.isLive h = true)
    {released : Nat → Nat}
    (hr : ∀ i, released i = s.released i + if h.index ≤ i ∧ i < h.index + 1 then 1 else 0)
    (hlt : ∀ i, released i < Handle.generations) :
    Consistent ⟨s.table.vacate h.index, s.ledger.strike h, released⟩ := by
  obtain ⟨o, ho⟩ := isLive_iff.1 hl
  have hocc := (resolve_eq_some_iff.1 ho).2.2
  have hsize := lt_of_occupant?_eq_some hocc
  have hgens := c.wellFormed.size_le_generations
  refine c.drop _ (c.wellFormed.vacate hocc) (fun i => ?_) ?_ (fun r => ?_) (fun i => ?_)
    (fun r hr' hk => ?_)
  · rw [vacate_generations]
    exact getD_retire c.generation (by omega) (hr i) (hlt i)
  · rw [c.depth, depth_eq, depth_eq, vacate_frames]
  · rw [resolve_vacate hl, c.live, ownerOf, ownerOf, vacate_frames]
    simp only [ne_eq, decide_not, Bool.not_eq_true', decide_eq_false_iff_not]
    tauto
  · rw [hr]
    exact Nat.le_add_right _ _
  · have hh : r.handle = h := by simpa using hk
    rw [hr, hh, if_pos (by omega)]
    exact Nat.lt_succ_self _

theorem «open» (c : Consistent s) (n : Nat) :
    Consistent ⟨s.table.opened n, { s.ledger with depth := s.ledger.depth + 1 }, s.released⟩ :=
  { c with
    wellFormed := c.wellFormed.opened n
    depth := by
      show s.ledger.depth + 1 = _
      rw [c.depth]
      rfl
    live := by
      intro r
      rw [resolve_opened]
      refine (c.live r).trans (and_congr_right fun hr => ?_)
      rw [ownerOf_opened (lt_of_occupant?_eq_some (resolve_eq_some_iff.1 hr).2.2)] }

theorem reserve (c : Consistent s) (n : Nat) :
    Consistent ⟨s.table.reserved n, s.ledger, s.released⟩ :=
  { c with
    wellFormed := c.wellFormed.reserved n
    live := by
      intro r
      rw [resolve_reserved, ownerOf_reserved]
      exact c.live r }

theorem close (c : Consistent s) {frame : Frame} {outer : List Frame}
    (ho : s.table.outer = frame :: outer) {released : Nat → Nat}
    (hr : ∀ i, released i = s.released i +
      if s.table.frame.mark ≤ i ∧ i < s.table.slots.size then 1 else 0)
    (hlt : ∀ i, released i < Handle.generations) :
    Consistent ⟨s.table.closed frame outer, s.ledger.close, released⟩ := by
  have hdepth : s.table.depth = outer.length + 2 := by rw [Locals.depth, ho, List.length_cons]
  have hkeep : ∀ r ∈ s.ledger.live,
      (r.owner < s.ledger.depth ↔ r.handle.index < s.table.frame.mark) := by
    intro r hr
    rw [((c.live r).1 hr).2, c.depth, c.wellFormed.ownerOf_lt_depth_iff]
  refine c.drop _ (c.wellFormed.closed ho) (fun i => ?_) ?_ (fun r => ?_) (fun i => ?_)
    (fun r hr' hk => ?_)
  · exact getD_retire c.generation c.wellFormed.size_le_generations (hr i) (hlt i)
  · rw [c.depth, hdepth]
    rfl
  · rw [c.wellFormed.resolve_closed, decide_eq_true_eq]
    constructor
    · rintro ⟨hm, hd⟩
      have hi := (hkeep r hm).1 hd
      obtain ⟨hres, how⟩ := (c.live r).1 hm
      exact ⟨⟨hres, hi⟩, by rw [ownerOf_closed ho hi, how]⟩
    · rintro ⟨⟨hres, hi⟩, how⟩
      rw [ownerOf_closed ho hi] at how
      have hm := (c.live r).2 ⟨hres, how⟩
      exact ⟨hm, (hkeep r hm).2 hi⟩
  · rw [hr]
    exact Nat.le_add_right _ _
  · have hi := mt (hkeep r hr').2 (by simpa using hk)
    have := c.lt_size_of_mem_handles (List.mem_map_of_mem hr')
    rw [hr, if_pos (by omega)]
    exact Nat.lt_succ_self _

theorem reset (c : Consistent s) {released : Nat → Nat}
    (hr : ∀ i, released i = s.released i + if 0 ≤ i ∧ i < s.table.slots.size then 1 else 0)
    (hlt : ∀ i, released i < Handle.generations) :
    Consistent ⟨s.table.reset, { s.ledger with depth := 1, live := [] }, released⟩ := by
  have : Consistent ⟨s.table.reset, ⟨1, s.ledger.live.filter fun _ => false, s.ledger.issued⟩,
      released⟩ := c.drop (fun _ => false) c.wellFormed.reset
    (fun i => getD_retire c.generation c.wellFormed.size_le_generations (hr i) (hlt i)) rfl
    (fun r => by simp) (fun i => by rw [hr]; exact Nat.le_add_right _ _)
    (fun r hr' _ => by
      have := c.lt_size_of_mem_handles (List.mem_map_of_mem hr')
      rw [hr, if_pos (by omega)]
      exact Nat.lt_succ_self _)
  simpa using this

/-- An operation keeps the table and its ledger in step. -/
theorem step (c : Consistent s) (op : Op α)
    (hlt : ∀ i, (s.step op).released i < Handle.generations) : Consistent (s.step op) := by
  have hsame : ∀ op : Op α, (∀ i, ¬ s.table.Releases i op) →
      (fun i => s.released i + if s.table.Releases i op then 1 else 0) = s.released := by
    intro op hn
    funext i
    rw [if_neg (hn i), Nat.add_zero]
  cases op with
  | create o =>
    unfold History.step
    rw [hsame _ fun _ => id]
    cases o with
    | none => exact c
    | some o =>
      simp only [perform, create_some]
      cases hv : s.table.vacancy? with
      | none => exact c
      | some v =>
        obtain ⟨hm, hi, -⟩ := c.wellFormed.vacancy hv
        have := c.own hv o
        rw [← handleAt_fill (Nat.le_trans hi c.wellFormed.size_le_generations)] at this
        exact this
  | delete h =>
    unfold History.step
    simp only [perform, delete?_eq]
    by_cases hl : s.table.isLive h = true
    · rw [if_pos hl]
      refine c.strike hl (fun i => ?_) hlt
      have : s.table.Releases i (.delete h) ↔ h.index ≤ i ∧ i < h.index + 1 := by
        simp only [Releases, hl, true_and]
        omega
      simp only [this]
    · rw [if_neg hl, hsame (.delete h) fun i hr => hl hr.1]
      exact c
  | push n =>
    unfold History.step
    rw [hsame _ fun _ => id]
    simp only [perform, push_eq]
    cases s.table.hasRoom n with
    | true => exact c.open n
    | false => exact c
  | ensure n =>
    unfold History.step
    rw [hsame _ fun _ => id]
    simp only [perform, ensure_eq]
    cases s.table.hasRoom n with
    | true => exact c.reserve n
    | false => exact c
  | pop result =>
    unfold History.step
    simp only [perform, pop?, close?_eq]
    cases ho : s.table.outer with
    | nil =>
      rw [hsame (.pop result) fun i hr => hr.1 ho]
      cases result <;> exact c
    | cons frame outer =>
      have hc := c.close ho (fun i => ?_) hlt
      · cases result with
        | none => exact hc
        | some o =>
          simp only [Option.map_some, create_some]
          cases hv : (s.table.closed frame outer).vacancy? with
          | none => exact hc
          | some v =>
            obtain ⟨hm, hi, -⟩ := hc.wellFormed.vacancy hv
            have := hc.own hv o
            rw [← handleAt_fill (Nat.le_trans hi hc.wellFormed.size_le_generations)] at this
            exact this
      · have : s.table.Releases i (.pop result) ↔
            s.table.frame.mark ≤ i ∧ i < s.table.slots.size := by
          simp [Releases, ho]
        simp only [History.step, this]
  | reset =>
    refine c.reset (fun i => ?_) hlt
    have : s.table.Releases i .reset ↔ 0 ≤ i ∧ i < s.table.slots.size := by simp [Releases]
    simp only [this]

end Consistent

/-- As long as no slot has run out of generations, the table holds what its ledger says. -/
theorem consistent_run (limit : Nat) (ops : List (Op α))
    (hlt : ∀ i, (History.run limit ops).released i < Handle.generations) :
    Consistent (History.run limit ops) := by
  induction ops using List.reverseRecOn with
  | nil => exact .start limit
  | append_singleton ops op ih =>
    rw [History.run_concat] at hlt ⊢
    exact (ih fun i => Nat.lt_of_le_of_lt (History.released_le_step _ op i) (hlt i)).step op hlt

/-- No slot has run out of generations earlier. -/
theorem released_prefix_lt {limit : Nat} {before after : List (Op α)} {bound : Nat}
    (hlt : ∀ i, (History.run limit (before ++ after)).released i < bound) (i : Nat) :
    (History.run limit before).released i < bound := by
  have := History.released_le_foldl after (History.run limit before) i
  rw [← History.run_append] at this
  exact Nat.lt_of_le_of_lt this (hlt i)

/-! ## New handles -/

/-- The object for which an operation asks for a reference. -/
def Op.object? : Op α → Option α
  | .create o => o
  | .pop result => result
  | _ => none

/-- An operation that gives out a handle enters it for its object, owned by the frame that is
innermost afterwards. -/
theorem entered_of_answer (s : History α) {op : Op α} (ha : (s.table.perform op).1 = .handle h)
    (hn : h ≠ .null) :
    ∃ o, op.object? = some o ∧ (s.step op).ledger.issued = h :: s.ledger.issued ∧
      ⟨h, o, (s.step op).ledger.depth⟩ ∈ (s.step op).ledger.live := by
  have hstep : (s.step op).ledger = s.ledger.note op (.handle h) := by
    rw [← ha]
    rfl
  rw [hstep]
  cases op with
  | create o =>
    cases o with
    | none =>
      rw [perform, create_none] at ha
      exact absurd (Answer.handle.inj ha).symm hn
    | some o => exact ⟨o, rfl, rfl, List.mem_cons_self⟩
  | pop result =>
    cases result with
    | none =>
      simp only [perform, pop?] at ha
      cases hc : s.table.close? with
      | none => rw [hc] at ha; cases ha
      | some t =>
        rw [hc, Option.map_some, create_none] at ha
        exact absurd (Answer.handle.inj ha).symm hn
    | some o => exact ⟨o, rfl, rfl, List.mem_cons_self⟩
  | delete h' => simp only [perform] at ha; split at ha <;> cases ha
  | push n => simp only [perform] at ha; split at ha <;> cases ha
  | ensure n => simp only [perform] at ha; split at ha <;> cases ha
  | reset => cases ha

/-! ## Frames as brackets -/

namespace Ledger

theorem mem_live_own {l : Ledger α} {o : α} {r : Reference α} {depth : Nat}
    (hin : depth < l.depth) (hr : r.owner ≤ depth) : r ∈ (l.own h o).live ↔ r ∈ l.live := by
  have hne : r ≠ ⟨h, o, l.depth⟩ := by
    rintro rfl
    exact absurd hr (by dsimp only; omega)
  simp [own, hne]

theorem mem_live_close {l : Ledger α} {r : Reference α} {depth : Nat}
    (hin : depth < l.depth) (hr : r.owner ≤ depth) : r ∈ l.close.live ↔ r ∈ l.live := by
  have : r.owner < l.depth := by omega
  simp [close, this]

theorem mem_live_strike {l : Ledger α} {r : Reference α} :
    r ∈ (l.strike h).live ↔ r ∈ l.live ∧ h ≠ r.handle := by
  rw [strike, List.mem_filter, decide_eq_true_iff, ne_comm]

/-- What the outer `depth` frames own stays, apart from what is deleted, as long as no more than
the frames inside them are closed. -/
theorem mem_live_note (l : Ledger α) (op : Op α) (a : Answer) {depth : Nat} (hd : 0 < depth)
    (hin : depth < l.depth) (hout : depth < (l.note op a).depth)
    (hdel : ∀ h, op = .delete h → a = .done ∨ h ∉ l.handles) {r : Reference α}
    (hr : r.owner ≤ depth) :
    r ∈ (l.note op a).live ↔ r ∈ l.live ∧ op ≠ .delete r.handle := by
  cases op with
  | create o =>
    simp only [ne_eq, reduceCtorEq, not_false_eq_true, and_true]
    rcases o with _ | o <;> cases a <;> first | exact mem_live_own hin hr | rfl
  | push n =>
    simp only [ne_eq, reduceCtorEq, not_false_eq_true, and_true]
    cases a <;> rfl
  | ensure n =>
    simp only [ne_eq, reduceCtorEq, not_false_eq_true, and_true]
    cases a <;> rfl
  | delete h =>
    rw [ne_eq, Op.delete.injEq]
    rcases hdel h rfl with rfl | hh
    · exact mem_live_strike
    · have hne : r ∈ l.live → h ≠ r.handle := by
        rintro hm rfl
        exact hh (List.mem_map_of_mem hm)
      have hnote : r ∈ (l.note (.delete h) a).live ↔ r ∈ l.live ∧ (a = .done → h ≠ r.handle) := by
        cases a <;> simp [note, mem_live_strike]
      rw [hnote]
      exact and_congr_right fun hm => by simp [hne hm]
  | pop result =>
    simp only [ne_eq, reduceCtorEq, not_false_eq_true, and_true]
    rcases result with _ | o <;> cases a <;>
      first
        | exact (mem_live_own (l := l.close) hout hr).trans (mem_live_close hin hr)
        | exact mem_live_close hin hr
        | rfl
  | reset =>
    simp only [ne_eq, reduceCtorEq, not_false_eq_true, and_true]
    cases a <;> first | rfl | exact absurd hout (by simp only [note]; omega)

end Ledger

theorem ownerOf_le_depth (t : Locals α) (i : Nat) : t.ownerOf i ≤ t.depth :=
  List.countP_le_length

theorem depth_pos (t : Locals α) : 0 < t.depth := Nat.succ_pos _

/-- A frame is opened, and the operations `inside` stay within it: it is not closed before their
end, when it is innermost again. -/
structure Brackets (limit : Nat) (before : List (Op α)) (capacity : Nat) (inside : List (Op α)) :
    Prop where
  opens : (History.run limit before).table.hasRoom capacity = true
  stays : ∀ first rest, inside = first ++ rest →
    (History.run limit before).table.depth <
      (History.run limit (before ++ .push capacity :: first)).table.depth
  ends : (History.run limit (before ++ .push capacity :: inside)).table.depth =
    (History.run limit before).table.depth + 1

/-- Within a bracket the frames around it lose what is deleted and nothing else. -/
theorem mem_live_of_brackets {limit : Nat} {before inside : List (Op α)} {n : Nat}
    (hlt : ∀ i, (History.run limit (before ++ .push n :: inside)).released i < Handle.generations)
    (hroom : (History.run limit before).table.hasRoom n = true)
    (hstays : ∀ first rest, inside = first ++ rest →
      (History.run limit before).table.depth <
        (History.run limit (before ++ .push n :: first)).table.depth)
    (r : Reference α) (hr : r.owner ≤ (History.run limit before).table.depth) :
    r ∈ (History.run limit (before ++ .push n :: inside)).ledger.live ↔
      r ∈ (History.run limit before).ledger.live ∧ .delete r.handle ∉ inside := by
  induction inside using List.reverseRecOn with
  | nil =>
    rw [History.run_concat]
    simp only [History.step, perform, push_eq, hroom, if_true, List.not_mem_nil, not_false_eq_true,
      and_true]
    rfl
  | append_singleton inside op ih =>
    have hcons : before ++ Op.push n :: (inside ++ [op]) =
        (before ++ Op.push n :: inside) ++ [op] := by simp
    rw [hcons] at hlt ⊢
    have hin := hstays inside [op] rfl
    have hout := hstays (inside ++ [op]) [] (List.append_nil _).symm
    rw [hcons] at hout
    have hlt' := released_prefix_lt hlt
    have c := consistent_run limit _ hlt'
    have c' := consistent_run limit _ hlt
    have ih := ih hlt' fun first rest h =>
      hstays first (rest ++ [op]) (by rw [h, List.append_assoc])
    rw [← c.depth] at hin
    rw [← c'.depth] at hout
    rw [History.run_concat] at hout ⊢
    refine (Ledger.mem_live_note _ op _ (depth_pos _) hin hout ?_ hr).trans ?_
    · rintro h rfl
      rw [c.mem_handles_iff]
      simp only [delete?_eq]
      by_cases hl : (History.run limit (before ++ .push n :: inside)).table.isLive h = true
      · exact .inl (by rw [if_pos hl])
      · exact .inr hl
    · rw [ih, List.mem_append, List.mem_singleton]
      tauto

/-! ## Lives of references -/

/-- What a table shows of its references after operations on it, in terms of its ledger. -/
structure KeepsLedger (limit : Nat) (ops : List (Op α)) : Prop where
  /-- A handle that is given out is new; the frame that is innermost afterwards owns it. -/
  fresh : ∀ before op after, ops = before ++ op :: after → ∀ h,
    ((History.run limit before).table.perform op).1 = .handle h → h ≠ .null →
      h ∉ (History.run limit before).ledger.issued ∧
      h ∈ (History.run limit (before ++ [op])).ledger.issued ∧
      ∃ o, op.object? = some o ∧
        ⟨h, o, (History.run limit (before ++ [op])).table.depth⟩ ∈
          (History.run limit (before ++ [op])).ledger.live
  /-- A handle stands for the object of its reference, until that is struck out. -/
  resolve : ∀ h o, (History.run limit ops).table.resolve h = some o ↔
    ∃ r ∈ (History.run limit ops).ledger.live, r.handle = h ∧ r.object = o
  /-- A handle that was given out and is struck out stays dead. -/
  dead : ∀ before after, ops = before ++ after →
    ∀ h ∈ (History.run limit before).ledger.issued, h ∉ (History.run limit before).ledger.handles →
      (History.run limit ops).table.isLive h = false ∧
      (History.run limit ops).table.resolve h = none ∧
      (History.run limit ops).table.delete? h = none
  /-- Deletion succeeds on the handles of references and on no others. -/
  delete : ∀ h, ((History.run limit ops).table.delete? h).isSome ↔
    h ∈ (History.run limit ops).ledger.handles
  depth : (History.run limit ops).table.depth = (History.run limit ops).ledger.depth
  live : (History.run limit ops).table.live = (History.run limit ops).ledger.live.length
  nodup : (History.run limit ops).ledger.handles.Nodup
  /-- After a frame is closed, what lives is what lived before it was opened, apart from what was
  deleted, and the result that was carried over. -/
  bracket : ∀ before n inside result, ops = before ++ .push n :: inside ++ [.pop result] →
    Brackets limit before n inside → ∀ h o,
      (History.run limit ops).table.resolve h = some o ↔
        ((History.run limit before).table.resolve h = some o ∧ .delete h ∉ inside) ∨
        (((History.run limit (before ++ .push n :: inside)).table.perform (.pop result)).1 =
          .handle h ∧ result = some o)

theorem Consistent.resolve_iff {s : History α} (c : Consistent s) (h : Handle) (o : α) :
    s.table.resolve h = some o ↔ ∃ r ∈ s.ledger.live, r.handle = h ∧ r.object = o := by
  constructor
  · intro hr
    exact ⟨⟨h, o, s.table.ownerOf h.index⟩, (c.live _).2 ⟨hr, rfl⟩, rfl, rfl⟩
  · rintro ⟨r, hm, rfl, rfl⟩
    exact ((c.live r).1 hm).1

/-- The references are as many as the slots that hold an object. -/
theorem live_eq (t : Locals α) :
    t.live = ((List.range t.slots.size).filter fun i => (t.occupant? i).isSome).length := by
  have hmap : t.slots.toList = (List.range t.slots.size).map fun i => t.occupant? i := by
    apply List.ext_getElem
    · simp
    · intro i h1 h2
      have hi : i < t.slots.size := by simpa using h1
      simp [occupant?, hi]
  rw [live, hmap, List.filter_map, List.length_map]
  rfl

theorem Consistent.live_eq_length {s : History α} (c : Consistent s) :
    s.table.live = s.ledger.live.length := by
  have hperm : (s.ledger.handles.map Handle.index).Perm
      ((List.range s.table.slots.size).filter fun i => (s.table.occupant? i).isSome) := by
    refine (List.perm_ext_iff_of_nodup ?_ (List.nodup_range.filter _)).2 fun i => ?_
    · refine c.handles_nodup.map_on fun h₁ hm₁ h₂ hm₂ hi => ?_
      exact eq_of_isLive_of_index_eq ((c.mem_handles_iff _).1 hm₁) ((c.mem_handles_iff _).1 hm₂) hi
    · rw [List.mem_map, List.mem_filter, List.mem_range]
      constructor
      · rintro ⟨h, hm, rfl⟩
        obtain ⟨o, ho⟩ := isLive_iff.1 ((c.mem_handles_iff h).1 hm)
        exact ⟨c.lt_size_of_mem_handles hm, by rw [(resolve_eq_some_iff.1 ho).2.2]; rfl⟩
      · rintro ⟨hi, ho⟩
        obtain ⟨o, ho⟩ := Option.isSome_iff_exists.1 ho
        have hmax := c.wellFormed.index_le hi
        have hgen := c.wellFormed.size_le_generations
        refine ⟨s.table.handleAt i, (c.mem_handles_iff _).2 (isLive_iff.2 ⟨o, ?_⟩),
          handleAt_index hmax⟩
        rw [resolve_eq_some_iff, handleAt_index hmax, handleAt_tag hmax,
          c.wellFormed.handleAt_generation hmax, Array.getElem?_eq_getElem (by omega)]
        exact ⟨rfl, rfl, ho⟩
  have := hperm.length_eq
  rw [live_eq, ← this, List.length_map, Ledger.handles, List.length_map]

theorem fresh_of_answer {limit : Nat} {before : List (Op α)} {op : Op α}
    (hlt : ∀ i, (History.run limit (before ++ [op])).released i < Handle.generations)
    (ha : ((History.run limit before).table.perform op).1 = .handle h) (hn : h ≠ .null) :
    h ∉ (History.run limit before).ledger.issued ∧
      h ∈ (History.run limit (before ++ [op])).ledger.issued ∧
      ∃ o, op.object? = some o ∧
        ⟨h, o, (History.run limit (before ++ [op])).table.depth⟩ ∈
          (History.run limit (before ++ [op])).ledger.live := by
  have c := consistent_run limit _ hlt
  rw [History.run_concat] at c ⊢
  obtain ⟨o, ho, hissued, hlive⟩ := entered_of_answer (History.run limit before) ha hn
  have hnd := c.issued_nodup
  rw [hissued, List.nodup_cons] at hnd
  refine ⟨hnd.1, by rw [hissued]; exact List.mem_cons_self, o, ho, ?_⟩
  rwa [← c.depth]

theorem dead_of_struck_out {limit : Nat} {before after : List (Op α)}
    (hlt : ∀ i, (History.run limit (before ++ after)).released i < Handle.generations)
    (hi : h ∈ (History.run limit before).ledger.issued)
    (hl : h ∉ (History.run limit before).ledger.handles) :
    (History.run limit (before ++ after)).table.isLive h = false := by
  have hg := (consistent_run limit before (released_prefix_lt hlt)).generation_lt_of_not_live hi hl
  refine (consistent_run limit _ hlt).not_live_of_generation_lt (Nat.lt_of_lt_of_le hg ?_)
  rw [History.run_append]
  exact History.released_le_foldl _ _ _

/-- What the frames around a bracket own when it ends. -/
theorem mem_close_of_brackets {limit : Nat} {before inside : List (Op α)} {n : Nat}
    (hlt : ∀ i, (History.run limit (before ++ .push n :: inside)).released i < Handle.generations)
    (b : Brackets limit before n inside) (h : Handle) (o : α) :
    (∃ r ∈ (History.run limit (before ++ .push n :: inside)).ledger.close.live,
        r.handle = h ∧ r.object = o) ↔
      (History.run limit before).table.resolve h = some o ∧ .delete h ∉ inside := by
  have c₀ := consistent_run limit before (released_prefix_lt hlt)
  have hkept := mem_live_of_brackets hlt b.opens b.stays
  have hends := b.ends
  rw [← (consistent_run limit _ hlt).depth] at hends
  rw [c₀.resolve_iff]
  constructor
  · rintro ⟨r, hm, rfl, rfl⟩
    obtain ⟨hm, how⟩ := List.mem_filter.1 hm
    rw [hends, decide_eq_true_eq] at how
    obtain ⟨hm, hdel⟩ := (hkept r (by omega)).1 hm
    exact ⟨⟨r, hm, rfl, rfl⟩, hdel⟩
  · rintro ⟨⟨r, hm, rfl, rfl⟩, hdel⟩
    have how : r.owner ≤ (History.run limit before).table.depth := by
      rw [((c₀.live r).1 hm).2]
      exact ownerOf_le_depth _ _
    refine ⟨r, List.mem_filter.2 ⟨(hkept r how).2 ⟨hm, hdel⟩, ?_⟩, rfl, rfl⟩
    rw [hends, decide_eq_true_eq]
    omega

theorem perform_pop_ne_refused {t : Locals α} (ho : t.outer ≠ []) (result : Option α) :
    (t.perform (.pop result)).1 ≠ .refused ∧ (t.perform (.pop result)).1 ≠ .done := by
  obtain ⟨frame, outer, ho⟩ := List.exists_cons_of_ne_nil ho
  simp only [perform, pop?, close?_eq, ho, Option.map_some]
  cases (t.closed frame outer).create result <;> simp

theorem resolve_of_brackets {limit : Nat} {before inside : List (Op α)} {n : Nat}
    {result : Option α}
    (hlt : ∀ i, (History.run limit (before ++ .push n :: inside ++ [.pop result])).released i <
      Handle.generations)
    (b : Brackets limit before n inside) (h : Handle) (o : α) :
    (History.run limit (before ++ .push n :: inside ++ [.pop result])).table.resolve h = some o ↔
      ((History.run limit before).table.resolve h = some o ∧ .delete h ∉ inside) ∨
      (((History.run limit (before ++ .push n :: inside)).table.perform (.pop result)).1 =
        .handle h ∧ result = some o) := by
  have hclose := mem_close_of_brackets (released_prefix_lt hlt) b h o
  -- The frame that was opened is not the outermost one, so it is closed.
  have houter : (History.run limit (before ++ .push n :: inside)).table.outer ≠ [] := by
    intro ho
    have := b.ends
    rw [Locals.depth, ho, List.length_nil] at this
    have := depth_pos (History.run limit before).table
    omega
  obtain ⟨hrefused, hdone⟩ := perform_pop_ne_refused houter result
  rw [(consistent_run limit _ hlt).resolve_iff, ← hclose, History.run_concat]
  show (∃ r ∈ (Ledger.note _ (.pop result) (perform _ (.pop result)).1).live, _) ↔ _
  generalize (perform _ (.pop result)).1 = a at *
  cases a with
  | handle h' =>
    cases result with
    | none => simp [Ledger.note]
    | some p =>
      simp only [Ledger.note, Ledger.own, List.mem_cons, or_and_right, exists_or, exists_eq_left,
        Answer.handle.injEq, Option.some.injEq]
      exact or_comm
  | unplaced => cases result <;> simp [Ledger.note]
  | refused => exact absurd rfl hrefused
  | done => exact absurd rfl hdone

/-- As long as no slot is released as often as there are generations, references live exactly
until they are deleted, their frame is closed or the table is reset. -/
theorem references_live_until_released (limit : Nat) (ops : List (Op α))
    (hlt : ∀ i, (History.run limit ops).released i < Handle.generations) :
    KeepsLedger limit ops where
  fresh := by
    rintro before op after rfl h ha hn
    rw [List.append_cons] at hlt
    exact fresh_of_answer (released_prefix_lt hlt) ha hn
  resolve := (consistent_run limit ops hlt).resolve_iff
  dead := by
    rintro before after rfl h hi hl
    have hdead := dead_of_struck_out hlt hi hl
    refine ⟨hdead, Option.isSome_eq_false_iff.1 hdead |> Option.isNone_iff_eq_none.1, ?_⟩
    rw [delete?_eq, if_neg (by rw [hdead]; exact Bool.false_ne_true)]
  delete := by
    intro h
    rw [(consistent_run limit ops hlt).mem_handles_iff, delete?_eq]
    split
    next hl => simp [hl]
    next hl => simp [hl]
  depth := (consistent_run limit ops hlt).depth.symm
  live := (consistent_run limit ops hlt).live_eq_length
  nodup := (consistent_run limit ops hlt).handles_nodup
  bracket := by
    rintro before n inside result rfl b
    exact resolve_of_brackets hlt b

/-- Two references, a frame that deletes one of them and carries a result over into its slot, a
reset, and one more reference in the same slot. -/
theorem references_live_through_reset :
    let ops : List (Op Nat) :=
      [.create (some 10), .create (some 20), .push 4, .create (some 30),
        .delete (.encode 0 0 .local), .pop (some 40), .reset, .create (some 50)]
    (∀ i, (History.run 0 ops).released i < Handle.generations) ∧ KeepsLedger 0 ops := by
  intro ops
  have hlt : ∀ i, (History.run 0 ops).released i < Handle.generations := fun i =>
    Nat.lt_of_le_of_lt (History.released_run_le_length 0 ops i) (by decide)
  exact ⟨hlt, references_live_until_released 0 ops hlt⟩

end GuestBoundary.Locals
