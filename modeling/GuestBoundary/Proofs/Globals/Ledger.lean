import GuestBoundary.Proofs.Globals.Table
import Mathlib.Data.List.Induction

/-!
# The table of global references as a map

A `Ledger` maps handles to what they stand for, strongly or weakly.  Making a reference enters a
handle, deleting it strikes the handle out, and nothing else changes the map.  `History.run`
performs operations in any order on an empty table, deletions of handles that never were given out
included, and keeps the ledger next to it.  As long as no slot has been released as often as there
are generations, the table is the map (`Consistent`), and no handle is given out twice.
-/

namespace GuestBoundary.Globals

variable {α : Type}

/-! ## Operations -/

/-- What the users of a table may ask for. -/
inductive Op (α : Type) where
  | strong (object : Option α)
  | weak (object : Option α)
  | delete (h : Handle)

/-- What they get to know. -/
inductive Answer where
  /-- The handle of a new reference, or null. -/
  | handle (h : Handle)
  | done
  /-- There is no room, and nothing has changed. -/
  | full (e : AllocError)
  /-- The handle is not live, and nothing has changed. -/
  | misuse (v : ContractViolation)

/-- The answer and the table after an attempt to make a reference. -/
def made (t : Globals α) : Except AllocError (Handle × Globals α) → Answer × Globals α
  | .ok (h, t) => (.handle h, t)
  | .error e => (.full e, t)

/-- Performs an operation. -/
def perform (t : Globals α) : Op α → Answer × Globals α
  | .strong o => t.made (t.createStrong o)
  | .weak o => t.made (t.createWeak o)
  | .delete h =>
    match t.delete h with
    | .ok t => (.done, t)
    | .error v => (.misuse v, t)

/-- What an operation asks for a reference to. -/
def Op.referent? : Op α → Option (Referent α)
  | .strong o => o.map .strong
  | .weak o => o.map .weak
  | .delete _ => none

/-- Whether an operation releases a slot. -/
def Releases (t : Globals α) (i : Nat) : Op α → Prop
  | .delete h => t.isLive h = true ∧ h.index = i
  | _ => False

instance (t : Globals α) (i : Nat) (op : Op α) : Decidable (t.Releases i op) := by
  cases op <;> unfold Releases <;> infer_instance

/-! ## Ledgers -/

/-- The map that a table should be. -/
structure Ledger (α : Type) where
  live : List (Handle × Referent α)
  /-- Every handle that was given out, null apart, the last one first. -/
  issued : List Handle

namespace Ledger

/-- The handles that stand for something. -/
def handles (l : Ledger α) : List Handle := l.live.map Prod.fst

/-- Enters a new handle. -/
def own (l : Ledger α) (h : Handle) (r : Referent α) : Ledger α :=
  ⟨(h, r) :: l.live, h :: l.issued⟩

/-- Strikes out a handle. -/
def strike (l : Ledger α) (h : Handle) : Ledger α :=
  { l with live := l.live.filter fun e => e.1 != h }

/-- Enters what an operation with an answer does. -/
def note (l : Ledger α) (op : Op α) : Answer → Ledger α
  | .handle h =>
    match op.referent? with
    | some r => l.own h r
    | none => l
  | .done =>
    match op with
    | .delete h => l.strike h
    | _ => l
  | _ => l

end Ledger

/-! ## Histories -/

/-- A table after some operations, with its ledger. -/
structure History (α : Type) where
  table : Globals α
  ledger : Ledger α
  /-- How often each slot was released. -/
  released : Nat → Nat

namespace History

/-- An empty table. -/
def start (limit : Nat) : History α := ⟨empty limit, ⟨[], []⟩, fun _ => 0⟩

/-- Performs one more operation. -/
def step (s : History α) (op : Op α) : History α :=
  let (answer, table) := s.table.perform op
  ⟨table, s.ledger.note op answer,
    fun i => s.released i + if s.table.Releases i op then 1 else 0⟩

/-- Performs operations in order on an empty table. -/
def run (limit : Nat) (ops : List (Op α)) : History α := ops.foldl step (start limit)

theorem run_append (limit : Nat) (before after : List (Op α)) :
    run limit (before ++ after) = after.foldl step (run limit before) :=
  List.foldl_append

theorem run_concat (limit : Nat) (ops : List (Op α)) (op : Op α) :
    run limit (ops ++ [op]) = (run limit ops).step op := run_append limit ops [op]

theorem released_le_step (s : History α) (op : Op α) (i : Nat) :
    s.released i ≤ (s.step op).released i := Nat.le_add_right _ _

theorem released_le_foldl (ops : List (Op α)) (s : History α) (i : Nat) :
    s.released i ≤ (ops.foldl step s).released i := by
  induction ops generalizing s with
  | nil => exact Nat.le_refl _
  | cons op ops ih => exact Nat.le_trans (released_le_step s op i) (ih _)

/-- An operation releases a slot at most once. -/
theorem released_run_le_length (limit : Nat) (ops : List (Op α)) (i : Nat) :
    (run limit ops).released i ≤ ops.length := by
  induction ops using List.reverseRecOn with
  | nil => exact Nat.le_refl _
  | append_singleton ops op ih =>
    have : ((run limit ops).step op).released i ≤ (run limit ops).released i + 1 := by
      refine Nat.add_le_add_left ?_ _
      split <;> omega
    rw [run_concat, List.length_append, List.length_singleton]
    omega

end History

/-! ## Tables that are what their ledger says -/

variable {t : Globals α} {h : Handle}

/-- A table is the map that its ledger says, and every slot has been released as often as its
generation counts.  A handle that was given out stands for something or is of an earlier
generation. -/
structure Consistent (s : History α) : Prop where
  wellFormed : s.table.WellFormed
  generation : ∀ i, s.table.generationOf i = s.released i
  live : ∀ h r, (h, r) ∈ s.ledger.live ↔ s.table.occupant? h = some r
  count : s.table.live = s.ledger.live.length
  handles_nodup : s.ledger.handles.Nodup
  issued_nodup : s.ledger.issued.Nodup
  issued_of_live : ∀ h ∈ s.ledger.handles, h ∈ s.ledger.issued
  stale : ∀ h ∈ s.ledger.issued,
    h ∈ s.ledger.handles ∨ h.generation < s.released h.index

namespace Consistent

variable {s : History α}

theorem mem_handles_iff (c : Consistent s) (h : Handle) :
    h ∈ s.ledger.handles ↔ s.table.isLive h = true := by
  rw [isLive_iff, Ledger.handles, List.mem_map]
  constructor
  · rintro ⟨⟨h, r⟩, hm, rfl⟩
    exact ⟨r, (c.live h r).1 hm⟩
  · rintro ⟨r, hr⟩
    exact ⟨(h, r), (c.live h r).2 hr, rfl⟩

theorem generation_eq_of_live (c : Consistent s) (hl : s.table.isLive h = true) :
    h.generation = s.released h.index := by
  obtain ⟨r, hr⟩ := isLive_iff.1 hl
  rw [← c.generation, (occupant?_eq_some_iff.1 hr).1]

/-- Nothing of an earlier generation is live, whatever sort of handle it is. -/
theorem not_live_of_generation_lt (c : Consistent s) (hg : h.generation < s.released h.index) :
    s.table.isLive h = false := by
  rw [Bool.eq_false_iff]
  intro hl
  rw [c.generation_eq_of_live hl] at hg
  omega

/-- The handle that a vacant slot would give out was never given out before. -/
theorem nextHandle_not_mem_issued (c : Consistent s) (hlim : s.table.live < s.table.limit)
    (k : RefKind) : s.table.nextHandle k ∉ s.ledger.issued := by
  have wf := c.wellFormed
  have hmax := wf.vacancy_le_maxIndex hlim
  intro hm
  rcases c.stale _ hm with hl | hlt
  · obtain ⟨r, hr⟩ := isLive_iff.1 ((c.mem_handles_iff _).1 hl)
    obtain ⟨-, hr, -, hv⟩ := occupant?_eq_some_iff.1 hr
    rw [nextHandle, Handle.index_encode hmax, wf.vacancy_vacant] at hr
    exact hv hr.symm
  · rw [nextHandle, Handle.index_encode hmax, Handle.generation_encode hmax (wf.generation_lt _),
      c.generation] at hlt
    omega

theorem start (limit : Nat) : Consistent (History.start limit : History α) where
  wellFormed := wellFormed_empty limit
  generation := fun _ => rfl
  live := by
    intro h r
    simp [History.start, occupant?, empty]
  count := rfl
  handles_nodup := List.nodup_nil
  issued_nodup := List.nodup_nil
  issued_of_live := by simp [History.start, Ledger.handles]
  stale := by simp [History.start]

/-! ### What one operation preserves -/

theorem own (c : Consistent s) (hlim : s.table.live < s.table.limit) {r : Referent α}
    (hr : r ≠ .vacant) :
    Consistent ⟨s.table.fill r, s.ledger.own (s.table.nextHandle r.kind) r, s.released⟩ := by
  have hfresh := c.nextHandle_not_mem_issued hlim r.kind
  constructor
  case wellFormed => exact c.wellFormed.fill hlim r
  case generation =>
    intro i
    rw [c.wellFormed.generationOf_fill]
    exact c.generation i
  case live =>
    intro h p
    rw [c.wellFormed.occupant?_fill (c.wellFormed.vacancy_le_maxIndex hlim) hr, Ledger.own,
      List.mem_cons, c.live, Prod.mk.injEq]
  case count => exact congrArg (· + 1) c.count
  case handles_nodup =>
    exact List.nodup_cons.2 ⟨fun hm => hfresh (c.issued_of_live _ hm), c.handles_nodup⟩
  case issued_nodup => exact List.nodup_cons.2 ⟨hfresh, c.issued_nodup⟩
  case issued_of_live =>
    intro h hh
    rcases List.mem_cons.1 hh with rfl | hh
    · exact List.mem_cons_self
    · exact List.mem_cons_of_mem _ (c.issued_of_live h hh)
  case stale =>
    intro h hh
    rcases List.mem_cons.1 hh with rfl | hh
    · exact .inl List.mem_cons_self
    · exact (c.stale h hh).imp (List.mem_cons_of_mem _) id

/-- Striking out a live handle takes one entry off the ledger. -/
theorem length_strike (c : Consistent s) (hl : h ∈ s.ledger.handles) :
    (s.ledger.strike h).live.length + 1 = s.ledger.live.length := by
  have herase : (s.ledger.strike h).handles = s.ledger.handles.erase h := by
    rw [c.handles_nodup.erase_eq_filter, Ledger.handles, Ledger.handles, List.filter_map]
    rfl
  have hlen := congrArg List.length herase
  rw [List.length_erase_of_mem hl, Ledger.handles, Ledger.handles, List.length_map,
    List.length_map] at hlen
  have : 0 < s.ledger.live.length := by
    rw [← List.length_map (f := Prod.fst)]
    exact List.length_pos_of_mem hl
  omega

theorem strike (c : Consistent s) (hl : s.table.isLive h = true) {released : Nat → Nat}
    (hr : ∀ i, released i = s.released i + if h.index = i then 1 else 0)
    (hlt : ∀ i, released i < Handle.generations) :
    Consistent ⟨s.table.vacate h.index, s.ledger.strike h, released⟩ := by
  have hi := lt_size_of_isLive hl
  have hmem := (c.mem_handles_iff h).2 hl
  have hlen := c.length_strike hmem
  have hcount := c.count
  have hgen : s.table.generationOf h.index + 1 < Handle.generations := by
    have := hlt h.index
    rwa [hr, if_pos rfl, ← c.generation] at this
  have hvac : s.table.referentOf h.index ≠ .vacant := by
    obtain ⟨r, hr⟩ := isLive_iff.1 hl
    obtain ⟨-, hr, -, hv⟩ := occupant?_eq_some_iff.1 hr
    exact hr ▸ hv
  constructor
  case wellFormed => exact c.wellFormed.vacate hvac (by omega) hgen
  case generation =>
    intro i
    show _ = released i
    rw [generationOf_vacate hi, hr]
    by_cases hii : i = h.index
    · rw [if_pos hii, if_pos hii.symm, Handle.nextGeneration, Nat.mod_eq_of_lt hgen, c.generation,
        hii]
    · rw [if_neg hii, if_neg (Ne.symm hii), c.generation]
      rfl
  case live =>
    intro h' r
    rw [occupant?_vacate hl, ← c.live, Ledger.strike, List.mem_filter, bne_iff_ne]
  case count =>
    show s.table.live - 1 = (s.ledger.strike h).live.length
    omega
  case handles_nodup => exact c.handles_nodup.sublist (List.filter_sublist.map _)
  case issued_nodup => exact c.issued_nodup
  case issued_of_live =>
    intro h' hh
    exact c.issued_of_live h' ((List.filter_sublist.map _).subset hh)
  case stale =>
    intro h' hh
    by_cases he : h' = h
    · right
      show _ < released _
      rw [he, c.generation_eq_of_live hl, hr, if_pos rfl]
      exact Nat.lt_succ_self _
    · refine (c.stale h' hh).imp (fun hm => ?_) fun hlt => ?_
      · obtain ⟨e, hm', rfl⟩ := List.mem_map.1 hm
        exact List.mem_map_of_mem (List.mem_filter.2 ⟨hm', by simpa using he⟩)
      · show _ < released _
        rw [hr]
        exact Nat.lt_of_lt_of_le hlt (Nat.le_add_right _ _)

/-- An operation keeps the table and its ledger in step. -/
theorem step (c : Consistent s) (op : Op α)
    (hlt : ∀ i, (s.step op).released i < Handle.generations) : Consistent (s.step op) := by
  have hsame : ∀ op : Op α, (∀ i, ¬ s.table.Releases i op) →
      (fun i => s.released i + if s.table.Releases i op then 1 else 0) = s.released := by
    intro op hn
    funext i
    rw [if_neg (hn i), Nat.add_zero]
  have hinsert : ∀ {op : Op α} {r : Referent α}, op.referent? = some r → r ≠ .vacant →
      Consistent ⟨(s.table.made (s.table.insert r)).2,
        s.ledger.note op (s.table.made (s.table.insert r)).1, s.released⟩ := by
    intro op r ho hr
    rw [c.wellFormed.insert_eq]
    split
    · exact c
    · simp only [made, Ledger.note, ho]
      exact c.own (by omega) hr
  cases op with
  | strong o =>
    unfold History.step
    rw [hsame _ fun _ => id]
    cases o with
    | none => exact c
    | some o => exact hinsert rfl (by simp)
  | weak o =>
    unfold History.step
    rw [hsame _ fun _ => id]
    cases o with
    | none => exact c
    | some o => exact hinsert rfl (by simp)
  | delete h =>
    unfold History.step
    simp only [perform, delete_eq]
    by_cases hl : s.table.isLive h = true
    · rw [if_pos hl]
      refine c.strike hl (fun i => ?_) hlt
      simp only [Releases, hl, true_and]
    · rw [if_neg hl, hsame (.delete h) fun i hr => hl hr.1]
      exact c

end Consistent

/-- As long as no slot has run out of generations, the table is what its ledger says. -/
theorem consistent_run (limit : Nat) (ops : List (Op α))
    (hlt : ∀ i, (History.run limit ops).released i < Handle.generations) :
    Consistent (History.run limit ops) := by
  induction ops using List.reverseRecOn with
  | nil => exact .start limit
  | append_singleton ops op ih =>
    rw [History.run_concat] at hlt ⊢
    exact (ih fun i => Nat.lt_of_le_of_lt (History.released_le_step _ op i) (hlt i)).step op hlt

/-- No slot has run out of generations earlier. -/
theorem released_prefix_lt {limit : Nat} {before after : List (Op α)} {bound : Nat}
    (hlt : ∀ i, (History.run limit (before ++ after)).released i < bound) (i : Nat) :
    (History.run limit before).released i < bound := by
  have := History.released_le_foldl after (History.run limit before) i
  rw [← History.run_append] at this
  exact Nat.lt_of_le_of_lt this (hlt i)

/-! ## The table as a map -/

/-- What a table shows after operations on it, in terms of its ledger. -/
structure ActsAsMap (limit : Nat) (ops : List (Op α)) : Prop where
  /-- A handle that is given out is new, and is entered for what it was asked for under the tag of
  its sort. -/
  fresh : ∀ before op after, ops = before ++ op :: after → ∀ h,
    ((History.run limit before).table.perform op).1 = .handle h → h ≠ .null →
      h ∉ (History.run limit before).ledger.issued ∧
      h ∈ (History.run limit (before ++ [op])).ledger.issued ∧
      ∃ r, op.referent? = some r ∧ h.tag = r.kind ∧
        (h, r) ∈ (History.run limit (before ++ [op])).ledger.live
  /-- The live handles are those that stand for something. -/
  isLive : ∀ h, (History.run limit ops).table.isLive h = true ↔
    h ∈ (History.run limit ops).ledger.handles
  /-- A handle that was given out is never live under another tag. -/
  tag : ∀ h ∈ (History.run limit ops).ledger.issued, ∀ k, k ≠ h.tag →
    (History.run limit ops).table.isLive (.encode h.index h.generation k) = false
  /-- A handle stands for its object, a weak one as long as the object is still there. -/
  resolve : ∀ alive h o, (History.run limit ops).table.resolve alive h = some o ↔
    ∃ r, (h, r) ∈ (History.run limit ops).ledger.live ∧ r.object? alive = some o
  /-- A handle that was given out and is struck out stays dead. -/
  dead : ∀ before after, ops = before ++ after →
    ∀ h ∈ (History.run limit before).ledger.issued, h ∉ (History.run limit before).ledger.handles →
      (History.run limit ops).table.isLive h = false
  /-- Deletion succeeds on live handles. -/
  delete : ∀ h ∈ (History.run limit ops).ledger.handles,
    ((History.run limit ops).table.perform (.delete h)).1 = .done
  /-- Deletion of any other handle is misuse and changes nothing. -/
  misuse : ∀ h, h ∉ (History.run limit ops).ledger.handles →
    (History.run limit ops).table.perform (.delete h) =
      (.misuse (.invalidHandle h.raw (expected h)), (History.run limit ops).table)
  /-- There is no room exactly when as many handles are live as the limit allows; then nothing
  changes. -/
  full : ∀ op r, op.referent? = some r →
    if (History.run limit ops).ledger.live.length = (History.run limit ops).table.limit then
      (History.run limit ops).table.perform op =
        (.full (.globalLimit (History.run limit ops).table.limit), (History.run limit ops).table)
    else
      ∃ h t, (History.run limit ops).table.perform op = (.handle h, t) ∧ h ≠ .null
  limit_eq : (History.run limit ops).table.limit = min limit Handle.maxIndex
  count : (History.run limit ops).table.live = (History.run limit ops).ledger.live.length
  nodup : (History.run limit ops).ledger.handles.Nodup

/-- An operation that gives out a handle enters it for what it was asked for. -/
theorem Consistent.entered_of_answer {s : History α} (c : Consistent s) {op : Op α}
    (ha : (s.table.perform op).1 = .handle h) (hn : h ≠ .null) :
    ∃ r, op.referent? = some r ∧ h.tag = r.kind ∧
      (s.step op).ledger = s.ledger.own h r := by
  have hstep : (s.step op).ledger = s.ledger.note op (.handle h) := by
    rw [← ha]
    rfl
  rw [hstep]
  have hinsert : ∀ r : Referent α, (s.table.made (s.table.insert r)).1 = .handle h →
      h.tag = r.kind := by
    intro r ha
    rw [c.wellFormed.insert_eq] at ha
    split at ha
    · cases ha
    next hlim =>
      obtain rfl := Answer.handle.inj ha
      exact Handle.tag_encode (c.wellFormed.vacancy_le_maxIndex (by omega)) _
  have hnull : ∀ o, (s.table.made o).1 = .handle h → o = .ok (.null, s.table) → False := by
    rintro _ ha rfl
    exact hn (Answer.handle.inj ha).symm
  cases op with
  | strong o =>
    cases o with
    | none => exact (hnull _ ha rfl).elim
    | some o => exact ⟨.strong o, rfl, hinsert _ ha, rfl⟩
  | weak o =>
    cases o with
    | none => exact (hnull _ ha rfl).elim
    | some o => exact ⟨.weak o, rfl, hinsert _ ha, rfl⟩
  | delete h' =>
    simp only [perform] at ha
    split at ha <;> cases ha

theorem fresh_of_answer {limit : Nat} {before : List (Op α)} {op : Op α}
    (hlt : ∀ i, (History.run limit (before ++ [op])).released i < Handle.generations)
    (ha : ((History.run limit before).table.perform op).1 = .handle h) (hn : h ≠ .null) :
    h ∉ (History.run limit before).ledger.issued ∧
      h ∈ (History.run limit (before ++ [op])).ledger.issued ∧
      ∃ r, op.referent? = some r ∧ h.tag = r.kind ∧
        (h, r) ∈ (History.run limit (before ++ [op])).ledger.live := by
  have c := consistent_run limit _ hlt
  rw [History.run_concat] at c ⊢
  obtain ⟨r, ho, htag, hledger⟩ :=
    (consistent_run limit before (released_prefix_lt hlt)).entered_of_answer ha hn
  have hnd := c.issued_nodup
  rw [hledger] at hnd ⊢
  exact ⟨(List.nodup_cons.1 hnd).1, List.mem_cons_self, r, ho, htag, List.mem_cons_self⟩

theorem dead_of_struck_out {limit : Nat} {before after : List (Op α)}
    (hlt : ∀ i, (History.run limit (before ++ after)).released i < Handle.generations)
    (hi : h ∈ (History.run limit before).ledger.issued)
    (hl : h ∉ (History.run limit before).ledger.handles) :
    (History.run limit (before ++ after)).table.isLive h = false := by
  have c := consistent_run limit before (released_prefix_lt hlt)
  have hg := (c.stale h hi).resolve_left hl
  refine (consistent_run limit _ hlt).not_live_of_generation_lt (Nat.lt_of_lt_of_le hg ?_)
  rw [History.run_append]
  exact History.released_le_foldl _ _ _

theorem Consistent.resolve_iff {s : History α} (c : Consistent s) (alive : α → Bool) (h : Handle)
    (o : α) : s.table.resolve alive h = some o ↔
      ∃ r, (h, r) ∈ s.ledger.live ∧ r.object? alive = some o := by
  rw [resolve, Option.bind_eq_some_iff]
  simp only [c.live]

/-- A handle that was given out fits its slot under no other tag. -/
theorem Consistent.not_live_of_tag_ne {s : History α} (c : Consistent s)
    (hi : h ∈ s.ledger.issued) {k : RefKind} (hk : k ≠ h.tag) :
    s.table.isLive (.encode h.index h.generation k) = false := by
  have hgen : h.generation < Handle.generations := Nat.mod_lt _ (by decide)
  have hmax : h.index ≤ Handle.maxIndex := by
    have := h.raw.toNat_lt
    simp only [Handle.index, Handle.indexUnit, Handle.maxIndex]
    omega
  have hidx : (Handle.encode h.index h.generation k).index = h.index :=
    Handle.index_encode hmax k
  have hgen' := Handle.generation_encode hmax hgen k
  rcases c.stale h hi with hl | hlt
  · rw [Bool.eq_false_iff]
    intro hl'
    have := eq_of_isLive_of_index_eq hl' ((c.mem_handles_iff h).1 hl) hidx
    rw [← this, Handle.tag_encode hmax] at hk
    exact hk rfl
  · exact c.not_live_of_generation_lt (by rwa [hidx, hgen'])

theorem limit_perform (t : Globals α) (op : Op α) : (t.perform op).2.limit = t.limit := by
  have hinsert : ∀ r, (t.made (t.insert r)).2.limit = t.limit := by
    intro r
    unfold insert
    split
    · rfl
    · split <;> rfl
  cases op with
  | strong o =>
    cases o with
    | none => rfl
    | some o => exact hinsert _
  | weak o =>
    cases o with
    | none => rfl
    | some o => exact hinsert _
  | delete h =>
    simp only [perform, delete_eq]
    by_cases hl : t.isLive h = true
    · rw [if_pos hl]
      rfl
    · rw [if_neg hl]

theorem limit_run (limit : Nat) (ops : List (Op α)) :
    (History.run limit ops).table.limit = min limit Handle.maxIndex := by
  induction ops using List.reverseRecOn with
  | nil => rfl
  | append_singleton ops op ih =>
    rw [History.run_concat, ← ih]
    exact limit_perform _ op

/-- A table that is not full makes a reference, and one that is full says so. -/
theorem WellFormed.made_insert (wf : t.WellFormed) {r : Referent α} (hr : r ≠ .vacant) :
    if t.live = t.limit then t.made (t.insert r) = (.full (.globalLimit t.limit), t)
    else ∃ h t', t.made (t.insert r) = (.handle h, t') ∧ h ≠ .null := by
  have hle := wf.live_le_limit
  rw [wf.insert_eq]
  by_cases hlim : t.live = t.limit
  · rw [if_pos hlim, if_pos (Nat.le_of_eq hlim.symm)]
    rfl
  · rw [if_neg hlim, if_neg (by omega)]
    refine ⟨t.nextHandle r.kind, t.fill r, rfl, fun hn => ?_⟩
    have hmax := wf.vacancy_le_maxIndex (by omega)
    have htag : (t.nextHandle r.kind).tag = r.kind := Handle.tag_encode hmax _
    rw [hn] at htag
    exact hr ((kind_eq_invalid_iff r).1 htag.symm)

theorem WellFormed.full_iff (wf : t.WellFormed) {op : Op α} {r : Referent α}
    (ho : op.referent? = some r) :
    if t.live = t.limit then t.perform op = (.full (.globalLimit t.limit), t)
    else ∃ h t', t.perform op = (.handle h, t') ∧ h ≠ .null := by
  cases op with
  | strong o =>
    obtain ⟨o, rfl, rfl⟩ := Option.map_eq_some_iff.1 ho
    exact wf.made_insert (by simp)
  | weak o =>
    obtain ⟨o, rfl, rfl⟩ := Option.map_eq_some_iff.1 ho
    exact wf.made_insert (by simp)
  | delete h => cases ho

/-- As long as no slot is released as often as there are generations, the table is the map that
its ledger says. -/
theorem acts_as_map (limit : Nat) (ops : List (Op α))
    (hlt : ∀ i, (History.run limit ops).released i < Handle.generations) :
    ActsAsMap limit ops where
  fresh := by
    rintro before op after rfl h ha hn
    rw [List.append_cons] at hlt
    exact fresh_of_answer (released_prefix_lt hlt) ha hn
  isLive := fun h => ((consistent_run limit ops hlt).mem_handles_iff h).symm
  tag := by
    intro h hi k hk
    exact (consistent_run limit ops hlt).not_live_of_tag_ne hi hk
  resolve := (consistent_run limit ops hlt).resolve_iff
  dead := by
    rintro before after rfl h hi hl
    exact dead_of_struck_out hlt hi hl
  delete := by
    intro h hl
    rw [(consistent_run limit ops hlt).mem_handles_iff] at hl
    simp only [perform, delete_eq, if_pos hl]
  misuse := by
    intro h hl
    rw [(consistent_run limit ops hlt).mem_handles_iff] at hl
    simp only [perform, delete_eq, if_neg hl]
  full := by
    intro op r ho
    have c := consistent_run limit ops hlt
    rw [← c.count]
    exact c.wellFormed.full_iff ho
  limit_eq := limit_run limit ops
  count := (consistent_run limit ops hlt).count
  nodup := (consistent_run limit ops hlt).handles_nodup

/-- A strong and a weak reference, a deletion, a deletion of a handle that was never given out, and
one more reference in the slot that was released. -/
theorem acts_as_map_through_reuse :
    let ops : List (Op Nat) :=
      [.strong (some 10), .weak (some 20), .strong (some 30), .delete (.encode 0 0 .global),
        .delete (.encode 0 0 .weakGlobal), .delete ⟨7⟩, .weak none, .weak (some 40)]
    (∀ i, (History.run 2 ops).released i < Handle.generations) ∧ ActsAsMap 2 ops := by
  intro ops
  have hlt : ∀ i, (History.run 2 ops).released i < Handle.generations := fun i =>
    Nat.lt_of_le_of_lt (History.released_run_le_length 2 ops i) (by decide)
  exact ⟨hlt, acts_as_map 2 ops hlt⟩

end GuestBoundary.Globals
