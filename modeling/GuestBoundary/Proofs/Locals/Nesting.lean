import GuestBoundary.Proofs.Locals.Ledger

/-!
# How deep operations go

Operations on a table go down to some depth before they come to their end.  Frames that lie below
that depth are not touched: what their references stand for stays, apart from what is deleted
(`WellFormed.resolve_after`), for as long as the table works.  A reference lives on exactly if it
is not deleted and the operations do not go below the frame that owns it, unless a slot runs out of
generations (`mem_live_after_iff`).
-/

namespace GuestBoundary.Locals

variable {α : Type} {t : Locals α} {h : Handle}

/-! ## Operations in order -/

/-- The table after some operations. -/
def after (t : Locals α) (ops : List (Op α)) : Locals α :=
  ops.foldl (fun t op => (t.perform op).2) t

@[simp] theorem after_nil (t : Locals α) : t.after [] = t := rfl

@[simp] theorem after_cons (t : Locals α) (op : Op α) (ops : List (Op α)) :
    t.after (op :: ops) = (t.perform op).2.after ops := rfl

theorem after_append (t : Locals α) (ops ops' : List (Op α)) :
    t.after (ops ++ ops') = (t.after ops).after ops' := List.foldl_append

/-- The smallest depth on the way. -/
def lowest (t : Locals α) : List (Op α) → Nat
  | [] => t.depth
  | op :: ops => min t.depth (lowest (t.perform op).2 ops)

theorem lowest_le_depth (t : Locals α) (ops : List (Op α)) : t.lowest ops ≤ t.depth := by
  cases ops with
  | nil => exact Nat.le_refl _
  | cons op ops => exact Nat.min_le_left _ _

theorem lowest_append (t : Locals α) (ops ops' : List (Op α)) :
    t.lowest (ops ++ ops') = min (t.lowest ops) ((t.after ops).lowest ops') := by
  induction ops generalizing t with
  | nil =>
    have := lowest_le_depth t ops'
    simp only [List.nil_append, lowest, after_nil]
    omega
  | cons op ops ih =>
    simp only [List.cons_append, lowest, ih, after_cons]
    omega

/-- The tables that operations make of empty ones. -/
def Reachable (t : Locals α) : Prop := ∃ limit ops, t = (History.run limit ops).table

theorem table_run_append (limit : Nat) (before ops : List (Op α)) :
    (History.run limit (before ++ ops)).table = (History.run limit before).table.after ops := by
  induction ops generalizing before with
  | nil => rw [List.append_nil, after_nil]
  | cons op ops ih =>
    have := ih (before ++ [op])
    rw [List.append_assoc, History.run_concat] at this
    exact this

theorem Reachable.empty (limit : Nat) : (Locals.empty limit : Locals α).Reachable :=
  ⟨limit, [], rfl⟩

theorem Reachable.after (hr : t.Reachable) (ops : List (Op α)) : (t.after ops).Reachable := by
  obtain ⟨limit, before, rfl⟩ := hr
  exact ⟨limit, before ++ ops, (table_run_append limit before ops).symm⟩

/-! ## Well-formed tables -/

theorem WellFormed.create (wf : t.WellFormed) {o : Option α} {t' : Locals α}
    (hc : t.create o = .ok (h, t')) : t'.WellFormed := by
  cases o with
  | none =>
    cases hc
    exact wf
  | some o =>
    rw [create_some] at hc
    cases hv : t.vacancy? with
    | none =>
      rw [hv] at hc
      cases hc
    | some v =>
      rw [hv] at hc
      cases hc
      exact wf.fill hv o

theorem WellFormed.perform (wf : t.WellFormed) (op : Op α) : (t.perform op).2.WellFormed := by
  cases op with
  | create o =>
    simp only [Locals.perform]
    cases hc : t.create o with
    | ok r => exact wf.create hc
    | error e => exact wf
  | delete h =>
    simp only [Locals.perform, delete?_eq]
    by_cases hl : t.isLive h = true
    · obtain ⟨o, ho⟩ := isLive_iff.1 hl
      rw [if_pos hl]
      exact wf.vacate (resolve_eq_some_iff.1 ho).2.2
    · rw [if_neg hl]
      exact wf
  | push n =>
    simp only [Locals.perform, push_eq]
    cases t.hasRoom n with
    | true => exact wf.opened n
    | false => exact wf
  | ensure n =>
    simp only [Locals.perform, ensure_eq]
    cases t.hasRoom n with
    | true => exact wf.reserved n
    | false => exact wf
  | pop result =>
    simp only [Locals.perform, pop?, close?_eq]
    cases ho : t.outer with
    | nil => exact wf
    | cons frame outer =>
      have hclosed := wf.closed ho
      simp only [Option.map_some]
      cases hc : (t.closed frame outer).create result with
      | ok r => exact hclosed.create hc
      | error e => exact hclosed
  | reset => exact wf.reset

theorem WellFormed.after (wf : t.WellFormed) (ops : List (Op α)) : (t.after ops).WellFormed := by
  induction ops generalizing t with
  | nil => exact wf
  | cons op ops ih => exact ih (wf.perform op)

theorem Reachable.wellFormed (hr : t.Reachable) : t.WellFormed := by
  obtain ⟨limit, ops, rfl⟩ := hr
  rw [← List.nil_append ops, table_run_append]
  exact (wellFormed_empty limit).after ops

theorem frames_create {o : Option α} {t' : Locals α} (hc : t.create o = .ok (h, t')) :
    t'.frames = t.frames := by
  cases o with
  | none =>
    cases hc
    rfl
  | some o =>
    rw [create_some] at hc
    cases hv : t.vacancy? with
    | none =>
      rw [hv] at hc
      cases hc
    | some v =>
      rw [hv] at hc
      cases hc
      exact fill_frames

theorem depth_create {o : Option α} {t' : Locals α} (hc : t.create o = .ok (h, t')) :
    t'.depth = t.depth := by
  rw [depth_eq, depth_eq, frames_create hc]

theorem depth_pop? {result : Option α} {r : Except AllocError Handle} {t' : Locals α}
    (hp : t.pop? result = some (r, t')) : t.depth = t'.depth + 1 := by
  rw [pop?, close?_eq] at hp
  cases ho : t.outer with
  | nil =>
    rw [ho] at hp
    cases hp
  | cons frame outer =>
    have hclosed : t.depth = (t.closed frame outer).depth + 1 := by
      rw [depth, ho]
      rfl
    rw [ho, Option.map_some] at hp
    cases hc : (t.closed frame outer).create result with
    | ok p =>
      rw [hc] at hp
      cases hp
      rw [depth_create hc]
      exact hclosed
    | error e =>
      rw [hc] at hp
      cases hp
      exact hclosed

theorem pop?_eq_none_iff {result : Option α} : t.pop? result = none ↔ t.depth = 1 := by
  rw [pop?, close?_eq, depth]
  cases t.outer with
  | nil => simp
  | cons frame outer => simp

theorem perform_push {n : Nat} (hroom : t.hasRoom n = true) :
    (t.perform (.push n)).2 = t.opened n := by
  rw [perform, push_eq, if_pos hroom]

theorem perform_pop {result : Option α} {r : Except AllocError Handle} {t' : Locals α}
    (hp : t.pop? result = some (r, t')) : (t.perform (.pop result)).2 = t' := by
  rw [perform, hp]
  cases r <;> rfl

/-! ## What lies under a frame -/

/-- A frame that starts with slot `mark` lies directly on the frames `base`. -/
def StandsOn (t : Locals α) (base : List Frame) (mark : Nat) : Prop :=
  ∃ above frame, t.frames = above ++ frame :: base ∧ frame.mark = mark

section Under

variable {base : List Frame} {mark : Nat}

/-- The innermost frame starts no earlier than the frames under it. -/
theorem StandsOn.mark_le (hs : t.StandsOn base mark) (wf : t.WellFormed) : mark ≤ t.frame.mark := by
  obtain ⟨above, frame, hf, rfl⟩ := hs
  rcases above with _ | ⟨f, above⟩
  · exact Nat.le_of_eq (congrArg Frame.mark (List.cons.inj hf).1.symm)
  · apply wf.outer_mark_le
    rw [(List.cons.inj hf).2]
    exact List.mem_append_right _ List.mem_cons_self

/-- Creation fills a slot of the innermost frame. -/
theorem StandsOn.create (hs : t.StandsOn base mark) (wf : t.WellFormed) {o : Option α} {h' : Handle}
    {t' : Locals α} (hc : t.create o = .ok (h', t')) :
    t'.StandsOn base mark ∧
      ∀ h, h.index < mark → ∀ p, t'.resolve h = some p ↔ t.resolve h = some p := by
  cases o with
  | none =>
    cases hc
    exact ⟨hs, fun _ _ _ => Iff.rfl⟩
  | some o =>
    rw [create_some] at hc
    cases hv : t.vacancy? with
    | none =>
      rw [hv] at hc
      cases hc
    | some v =>
      rw [hv] at hc
      cases hc
      obtain ⟨hm, -, hlim, -⟩ := wf.vacancy hv
      have hmark := hs.mark_le wf
      refine ⟨hs, fun h hi p => ?_⟩
      rw [wf.resolve_fill hv]
      apply or_iff_right
      rintro ⟨rfl, -⟩
      rw [handleAt_index (Nat.le_trans (Nat.le_of_lt hlim) wf.limit_le)] at hi
      omega

/-- Closing a frame that does not lie directly on the base leaves the ones under it. -/
theorem StandsOn.closed (hs : t.StandsOn base mark) (wf : t.WellFormed) {frame : Frame}
    {outer : List Frame} (ho : t.outer = frame :: outer) (hd : base.length < outer.length + 1) :
    (t.closed frame outer).StandsOn base mark ∧
      ∀ h, h.index < mark → ∀ p,
        (t.closed frame outer).resolve h = some p ↔ t.resolve h = some p := by
  constructor
  · obtain ⟨above, f, hf, hm⟩ := hs
    rw [frames, ho] at hf
    rcases above with _ | ⟨g, above⟩
    · have := congrArg List.length (List.cons.inj hf).2
      rw [List.length_cons] at this
      omega
    · exact ⟨above, f, (List.cons.inj hf).2, hm⟩
  · intro h hi p
    have := hs.mark_le wf
    rw [wf.resolve_closed]
    exact and_iff_left (by omega)

/-- An operation that stays above the base leaves what lies under it, apart from what it deletes. -/
theorem StandsOn.perform (hs : t.StandsOn base mark) (wf : t.WellFormed) (op : Op α)
    (hd : base.length < (t.perform op).2.depth) :
    (t.perform op).2.StandsOn base mark ∧
      ∀ h, h.index < mark → ∀ p,
        (t.perform op).2.resolve h = some p ↔ t.resolve h = some p ∧ op ≠ .delete h := by
  have hsame : t.StandsOn base mark ∧ ∀ h, h.index < mark → ∀ p : α,
      t.resolve h = some p ↔ t.resolve h = some p ∧ True :=
    ⟨hs, fun _ _ _ => (and_iff_left trivial).symm⟩
  cases op with
  | create o =>
    simp only [ne_eq, reduceCtorEq, not_false_eq_true, Locals.perform]
    cases hc : t.create o with
    | ok r => simpa using hs.create wf hc
    | error e => exact hsame
  | delete h' =>
    simp only [ne_eq, Op.delete.injEq, Locals.perform, delete?_eq]
    by_cases hl : t.isLive h' = true
    · rw [if_pos hl]
      refine ⟨?_, fun h _ p => ?_⟩
      · unfold StandsOn
        rwa [vacate_frames]
      · rw [resolve_vacate hl, ne_comm]
    · rw [if_neg hl]
      refine ⟨hs, fun h _ p => (and_iff_left_of_imp fun hr => ?_).symm⟩
      rintro rfl
      exact hl (isLive_of_resolve hr)
  | push n =>
    simp only [ne_eq, reduceCtorEq, not_false_eq_true, Locals.perform, push_eq]
    cases t.hasRoom n with
    | true =>
      obtain ⟨above, f, hf, hm⟩ := hs
      refine ⟨⟨⟨t.slots.size, n⟩ :: above, f, ?_, hm⟩, hsame.2⟩
      show (t.opened n).frames = _
      rw [opened_frames, hf, List.cons_append]
    | false => exact hsame
  | ensure n =>
    simp only [ne_eq, reduceCtorEq, not_false_eq_true, Locals.perform, ensure_eq]
    cases t.hasRoom n with
    | true =>
      obtain ⟨above, f, hf, hm⟩ := hs
      rcases above with _ | ⟨g, above⟩
      · refine ⟨⟨[], _, congrArg _ (List.cons.inj hf).2, ?_⟩, hsame.2⟩
        exact (congrArg Frame.mark (List.cons.inj hf).1).trans hm
      · exact ⟨⟨_ :: above, f, congrArg _ (List.cons.inj hf).2, hm⟩, hsame.2⟩
    | false => exact hsame
  | pop result =>
    simp only [ne_eq, reduceCtorEq, not_false_eq_true, Locals.perform, pop?, close?_eq] at hd ⊢
    cases ho : t.outer with
    | nil => exact hsame
    | cons frame outer =>
      rw [ho] at hd
      simp only [Option.map_some] at hd ⊢
      cases hc : (t.closed frame outer).create result with
      | ok r =>
        rw [hc] at hd
        obtain ⟨hs', hr⟩ := hs.closed wf ho (Nat.lt_of_lt_of_eq hd (depth_create hc))
        obtain ⟨hs'', hr'⟩ := hs'.create (wf.closed ho) hc
        refine ⟨hs'', fun h hi p => ?_⟩
        rw [hr' h hi, hr h hi, and_true]
      | error e =>
        rw [hc] at hd
        obtain ⟨hs', hr⟩ := hs.closed wf ho hd
        refine ⟨hs', fun h hi p => ?_⟩
        rw [hr h hi, and_true]
  | reset =>
    -- Only the outermost frame is left, and it starts with the first slot.
    obtain ⟨above, f, hf, hm⟩ := hs
    obtain rfl := List.length_eq_zero_iff.1 (Nat.lt_one_iff.1 hd)
    have hlast : t.outer.getLastD t.frame = f := by
      rw [← List.getLastD_cons (a := f), ← frames, hf, List.getLastD_concat]
    have hzero := wf.root
    rw [hlast, hm] at hzero
    refine ⟨⟨[], f, ?_, hm⟩, fun h hi => ?_⟩
    · rw [Locals.perform, reset_frames, hlast, List.nil_append]
    · omega

/-- Operations that stay above the base leave what lies under it, apart from what they delete. -/
theorem StandsOn.after (hs : t.StandsOn base mark) (wf : t.WellFormed) (ops : List (Op α))
    (hd : base.length < t.lowest ops) :
    (t.after ops).StandsOn base mark ∧
      ∀ h, h.index < mark → ∀ p,
        (t.after ops).resolve h = some p ↔ t.resolve h = some p ∧ .delete h ∉ ops := by
  induction ops generalizing t with
  | nil => exact ⟨hs, fun h _ p => by simp⟩
  | cons op ops ih =>
    have hlow : base.length < (t.perform op).2.lowest ops := by
      rw [lowest] at hd
      omega
    obtain ⟨hs', hr⟩ := hs.perform wf op (Nat.lt_of_lt_of_le hlow (lowest_le_depth _ _))
    obtain ⟨hs'', hr'⟩ := ih hs' (wf.perform op) hlow
    refine ⟨hs'', fun h hi p => ?_⟩
    rw [after_cons, hr' h hi, hr h hi, List.mem_cons, not_or, and_assoc, ne_comm]

end Under

/-! ## Frames as brackets, at any time -/

/-- A frame is opened, the operations inside stay within it, and it is closed: then the table has
the frames that it had, and its references, apart from what was deleted. -/
theorem WellFormed.resolve_after (wf : t.WellFormed) {n : Nat} {ops : List (Op α)}
    (hstays : t.depth < (t.opened n).lowest ops)
    (hends : ((t.opened n).after ops).depth = t.depth + 1) :
    ∃ t', ((t.opened n).after ops).pop? none = some (.ok .null, t') ∧ t'.frames = t.frames ∧
      ∀ h p, t'.resolve h = some p ↔ t.resolve h = some p ∧ .delete h ∉ ops := by
  have hopened : (t.opened n).StandsOn t.frames t.slots.size := ⟨[], _, rfl, rfl⟩
  have wf' := (wf.opened n).after ops
  obtain ⟨⟨above, frame, hf, hm⟩, hr⟩ := hopened.after (wf.opened n) ops hstays
  have habove : above = [] := by
    rw [depth_eq, hf, List.length_append, List.length_cons, depth_eq] at hends
    exact List.length_eq_zero_iff.1 (by omega)
  subst habove
  obtain ⟨hframe, houter⟩ := List.cons.inj hf
  refine ⟨((t.opened n).after ops).closed t.frame t.outer, ?_, rfl, fun h p => ?_⟩
  · rw [pop?, close?_eq, houter]
    rfl
  · rw [wf'.resolve_closed, hframe, hm]
    constructor
    · rintro ⟨hres, hi⟩
      exact (hr h hi p).1 hres
    · rintro ⟨hres, hdel⟩
      have hi := lt_of_occupant?_eq_some (resolve_eq_some_iff.1 hres).2.2
      exact ⟨(hr h hi p).2 ⟨hres, hdel⟩, hi⟩

/-! ## What lives on -/

theorem Ledger.mem_live_close_iff {l : Ledger α} {r : Reference α} (hd : 0 < l.depth)
    (hr : r ∈ l.live) : r ∈ l.close.live ↔ r.owner ≤ l.close.depth := by
  have hdepth : l.close.depth = l.depth - 1 := rfl
  rw [hdepth, close, List.mem_filter, decide_eq_true_iff]
  constructor
  · rintro ⟨-, hlt⟩
    omega
  · intro hle
    exact ⟨hr, by omega⟩

/-- A reference lives on over one operation exactly if it is not deleted and its frame is open
afterwards. -/
theorem Ledger.mem_live_note_iff {l : Ledger α} {op : Op α} {a : Answer} {r : Reference α}
    (hd : 0 < l.depth) (hr : r ∈ l.live) (howner : r.owner ≤ l.depth) (hreset : op ≠ .reset)
    (hdel : ∀ h, op = .delete h → a = .done ∨ h ∉ l.handles) :
    r ∈ (l.note op a).live ↔ op ≠ .delete r.handle ∧ r.owner ≤ (l.note op a).depth := by
  have hsame : r ∈ l.live ↔ True ∧ r.owner ≤ l.depth := by simp [hr, howner]
  have hown : ∀ h o, r ∈ (l.own h o).live ↔ True ∧ r.owner ≤ l.depth := by
    intro h o
    simp [own, hr, howner]
  have hopen : r ∈ l.live ↔ True ∧ r.owner ≤ l.depth + 1 := by
    simp only [hr, true_and, true_iff]
    omega
  have hclose : r ∈ l.close.live ↔ True ∧ r.owner ≤ l.close.depth := by
    rw [true_and, mem_live_close_iff hd hr]
  have hcarry : ∀ h o, r ∈ (l.close.own h o).live ↔ True ∧ r.owner ≤ l.close.depth := by
    intro h o
    rw [own, List.mem_cons, hclose, true_and, or_iff_right_iff_imp]
    rintro rfl
    exact Nat.le_refl _
  cases op with
  | create o =>
    simp only [ne_eq, reduceCtorEq, not_false_eq_true]
    rcases o with _ | o <;> cases a <;> first | exact hown _ _ | exact hsame
  | delete h =>
    rw [ne_eq, Op.delete.injEq]
    rcases hdel h rfl with rfl | hh
    · rw [note, mem_live_strike]
      exact and_congr (iff_of_true hr howner) Iff.rfl |>.trans and_comm
    · have hne : h ≠ r.handle := fun e => hh (e ▸ List.mem_map_of_mem hr)
      have hnote : r ∈ (l.note (.delete h) a).live := by
        cases a <;> simp [note, mem_live_strike, hr, hne]
      have hdepth : (l.note (.delete h) a).depth = l.depth := by cases a <;> rfl
      rw [hdepth]
      exact iff_of_true hnote ⟨hne, howner⟩
  | push n =>
    simp only [ne_eq, reduceCtorEq, not_false_eq_true]
    cases a <;> first | exact hopen | exact hsame
  | ensure n =>
    simp only [ne_eq, reduceCtorEq, not_false_eq_true]
    cases a <;> exact hsame
  | pop result =>
    simp only [ne_eq, reduceCtorEq, not_false_eq_true]
    rcases result with _ | o <;> cases a <;>
      first
        | exact hcarry _ _
        | exact hclose
        | exact hsame
  | reset => exact absurd rfl hreset

theorem Consistent.owner_le_depth {s : History α} (c : Consistent s) {r : Reference α}
    (hr : r ∈ s.ledger.live) : r.owner ≤ s.ledger.depth := by
  rw [((c.live r).1 hr).2, c.depth]
  exact ownerOf_le_depth _ _

theorem Consistent.mem_live_step_iff {s : History α} (c : Consistent s) {op : Op α}
    (c' : Consistent (s.step op)) (hreset : op ≠ .reset) {r : Reference α}
    (hr : r ∈ s.ledger.live) :
    r ∈ (s.step op).ledger.live ↔ op ≠ .delete r.handle ∧ r.owner ≤ (s.step op).table.depth := by
  rw [← c'.depth]
  apply Ledger.mem_live_note_iff (c.depth ▸ depth_pos _) hr (c.owner_le_depth hr) hreset
  rintro h rfl
  rw [c.mem_handles_iff]
  simp only [delete?_eq]
  by_cases hl : s.table.isLive h = true
  · exact .inl (by rw [if_pos hl])
  · exact .inr hl

/-- What is live after an operation was live before, or the operation gave it out. -/
theorem Ledger.mem_live_of_note {l : Ledger α} {op : Op α} {a : Answer} {r : Reference α}
    (hr : r ∈ (l.note op a).live) : r ∈ l.live ∨ a = .handle r.handle := by
  have hown : ∀ {l' : Ledger α} {h o}, r ∈ (l'.own h o).live → r ∈ l'.live ∨ h = r.handle := by
    intro l' h o hr
    rcases List.mem_cons.1 hr with rfl | hr
    · exact .inr rfl
    · exact .inl hr
  have hclose : r ∈ l.close.live → r ∈ l.live := fun hr => (List.mem_filter.1 hr).1
  cases op with
  | create o =>
    rcases o with _ | o <;> cases a <;>
      first
        | exact (hown hr).imp id fun e => by rw [e]
        | exact .inl hr
  | delete h =>
    cases a <;> first | exact .inl (mem_live_strike.1 hr).1 | exact .inl hr
  | push n => cases a <;> exact .inl hr
  | ensure n => cases a <;> exact .inl hr
  | pop result =>
    rcases result with _ | o <;> cases a <;>
      first
        | exact (hown hr).imp hclose fun e => by rw [e]
        | exact .inl (hclose hr)
        | exact .inl hr
  | reset => cases a <;> first | exact .inl hr | exact absurd hr List.not_mem_nil

/-- What was given out stays known. -/
theorem Ledger.mem_issued_note {l : Ledger α} {op : Op α} {a : Answer} (hi : h ∈ l.issued) :
    h ∈ (l.note op a).issued := by
  have hown : ∀ {l' : Ledger α} {h' o}, h ∈ l'.issued → h ∈ (l'.own h' o).issued :=
    List.mem_cons_of_mem _
  cases op with
  | create o => rcases o with _ | o <;> cases a <;> first | exact hown hi | exact hi
  | pop result => rcases result with _ | o <;> cases a <;> first | exact hown hi | exact hi
  | delete h' => cases a <;> exact hi
  | push n => cases a <;> exact hi
  | ensure n => cases a <;> exact hi
  | reset => cases a <;> exact hi

theorem Consistent.ne_null {s : History α} (c : Consistent s) {r : Reference α}
    (hr : r ∈ s.ledger.live) : r.handle ≠ .null := by
  intro hn
  have := (resolve_eq_some_iff.1 ((c.live r).1 hr).1).1
  rw [hn] at this
  exact absurd this (by decide)

/-- No new reference has the handle of one that was live before. -/
theorem Consistent.not_mem_handles_step {s : History α} (c : Consistent s) {op : Op α}
    (c' : Consistent (s.step op)) {r : Reference α} (hr : r ∈ s.ledger.live)
    (hl : r ∉ (s.step op).ledger.live) : r.handle ∉ (s.step op).ledger.handles := by
  intro hm
  obtain ⟨r', hr', he⟩ := List.mem_map.1 hm
  rcases Ledger.mem_live_of_note hr' with hold | hnew
  · rw [List.inj_on_of_nodup_map c.handles_nodup hold hr he] at hr'
    exact hl hr'
  · obtain ⟨o, -, hissued, -⟩ := entered_of_answer s hnew (c'.ne_null hr')
    have hnd := c'.issued_nodup
    rw [hissued, he] at hnd
    exact (List.nodup_cons.1 hnd).1 (c.issued_of_live _ (List.mem_map_of_mem hr))

/-- A reference lives on exactly if it is not deleted and the operations do not go below the frame
that owns it. -/
theorem mem_live_after_iff {limit : Nat} {before ops : List (Op α)}
    (hlt : ∀ i, (History.run limit (before ++ ops)).released i < Handle.generations)
    (hreset : .reset ∉ ops) {r : Reference α} (hr : r ∈ (History.run limit before).ledger.live) :
    r ∈ (History.run limit (before ++ ops)).ledger.live ↔
      .delete r.handle ∉ ops ∧ r.owner ≤ (History.run limit before).table.lowest ops := by
  induction ops generalizing before with
  | nil =>
    have c := consistent_run limit _ hlt
    rw [List.append_nil] at c ⊢
    have := c.depth ▸ c.owner_le_depth hr
    simp [hr, lowest, this]
  | cons op ops ih =>
    have hsplit : before ++ op :: ops = (before ++ [op]) ++ ops := by simp
    rw [hsplit] at hlt ⊢
    have hlt' := released_prefix_lt hlt
    have c := consistent_run limit before (released_prefix_lt hlt')
    have c' := consistent_run limit (before ++ [op]) hlt'
    have hstep : r ∈ (History.run limit (before ++ [op])).ledger.live ↔
        op ≠ .delete r.handle ∧ r.owner ≤ (History.run limit (before ++ [op])).table.depth := by
      rw [History.run_concat] at c' ⊢
      exact c.mem_live_step_iff c' (fun e => hreset (e ▸ List.mem_cons_self)) hr
    have htable : (History.run limit (before ++ [op])).table =
        ((History.run limit before).table.perform op).2 := by
      rw [table_run_append]
      rfl
    have howner := c.depth ▸ c.owner_le_depth hr
    have hlow := lowest_le_depth (History.run limit (before ++ [op])).table ops
    rw [lowest, ← htable, List.mem_cons, not_or]
    by_cases hl : r ∈ (History.run limit (before ++ [op])).ledger.live
    · rw [ih hlt (fun hm => hreset (List.mem_cons_of_mem _ hm)) hl]
      have hdel := (hstep.1 hl).1.symm
      constructor
      · rintro ⟨hd, hle⟩
        exact ⟨⟨hdel, hd⟩, by omega⟩
      · rintro ⟨⟨-, hd⟩, hle⟩
        exact ⟨hd, by omega⟩
    · -- Once it is struck out, it stays so.
      have hissued : r.handle ∈ (History.run limit (before ++ [op])).ledger.issued := by
        rw [History.run_concat]
        exact Ledger.mem_issued_note (c.issued_of_live _ (List.mem_map_of_mem hr))
      have hdead : r ∉ (History.run limit (before ++ [op] ++ ops)).ledger.live := by
        intro hm
        have hnot : r.handle ∉ (History.run limit (before ++ [op])).ledger.handles := by
          rw [History.run_concat] at c' hl ⊢
          exact c.not_mem_handles_step c' hr hl
        have := dead_of_struck_out hlt hissued hnot
        rw [(consistent_run limit _ hlt).mem_handles_iff _ |>.1 (List.mem_map_of_mem hm)] at this
        cases this
      apply iff_of_false hdead
      rintro ⟨⟨hd, -⟩, hle⟩
      exact hl (hstep.2 ⟨Ne.symm hd, by omega⟩)

/-! ## What is left over -/

/-- An operation makes the reference, and no later one deletes it or goes below the frame that owns
it. -/
def Leftover (t : Locals α) (ops : List (Op α)) (h : Handle) : Prop :=
  ∃ first op rest, ops = first ++ op :: rest ∧ ((t.after first).perform op).1 = .handle h ∧
    h ≠ .null ∧ .delete h ∉ rest ∧
    (t.after (first ++ [op])).depth ≤ (t.after (first ++ [op])).lowest rest

theorem Leftover.cons {op : Op α} {ops : List (Op α)} (hl : Leftover (t.perform op).2 ops h) :
    Leftover t (op :: ops) h := by
  obtain ⟨first, op', rest, rfl, hmade, hn, hdel, hlow⟩ := hl
  exact ⟨op :: first, op', rest, rfl, hmade, hn, hdel, hlow⟩

section Leftover

variable {limit : Nat} {before ops : List (Op α)}
  (hlt : ∀ i, (History.run limit (before ++ ops)).released i < Handle.generations)

theorem mem_issued_run (hi : h ∈ (History.run limit before).ledger.issued) (ops : List (Op α)) :
    h ∈ (History.run limit (before ++ ops)).ledger.issued := by
  induction ops generalizing before with
  | nil => rwa [List.append_nil]
  | cons op ops ih =>
    have hstep : h ∈ (History.run limit (before ++ [op])).ledger.issued := by
      rw [History.run_concat]
      exact Ledger.mem_issued_note hi
    have := ih hstep
    rwa [List.append_assoc] at this

include hlt

/-- What is live and was not live before was left over. -/
theorem leftover_of_mem (hreset : .reset ∉ ops) {r : Reference α}
    (hr : r ∈ (History.run limit (before ++ ops)).ledger.live)
    (hnew : r ∉ (History.run limit before).ledger.live) :
    Leftover (History.run limit before).table ops r.handle := by
  induction ops generalizing before with
  | nil =>
    rw [List.append_nil] at hr
    exact absurd hr hnew
  | cons op ops ih =>
    have hsplit : before ++ op :: ops = (before ++ [op]) ++ ops := by simp
    rw [hsplit] at hlt hr
    have hreset' : .reset ∉ ops := fun hm => hreset (List.mem_cons_of_mem _ hm)
    have htable : (History.run limit (before ++ [op])).table =
        ((History.run limit before).table.perform op).2 := by
      rw [table_run_append]
      rfl
    by_cases hm : r ∈ (History.run limit (before ++ [op])).ledger.live
    · have hlt' := released_prefix_lt hlt
      have c' := consistent_run limit _ hlt'
      have hn := c'.ne_null hm
      have hmade : ((History.run limit before).table.perform op).1 = .handle r.handle := by
        rw [History.run_concat] at hm
        exact (Ledger.mem_live_of_note hm).resolve_left hnew
      obtain ⟨-, -, o, -, hlive⟩ := fresh_of_answer hlt' hmade hn
      have howner : r.owner = (History.run limit (before ++ [op])).table.depth :=
        congrArg Reference.owner (List.inj_on_of_nodup_map c'.handles_nodup hm hlive rfl)
      obtain ⟨hdel, hlow⟩ := (mem_live_after_iff hlt hreset' hm).1 hr
      rw [howner, htable] at hlow
      exact ⟨[], op, ops, rfl, hmade, hn, hdel, hlow⟩
    · have := ih hlt hreset' hr hm
      rw [htable] at this
      exact this.cons

/-- What was left over is live, and was not live before. -/
theorem Leftover.mem (hreset : .reset ∉ ops)
    (hl : Leftover (History.run limit before).table ops h) :
    h ∈ (History.run limit (before ++ ops)).ledger.handles ∧
      h ∉ (History.run limit before).ledger.handles := by
  obtain ⟨first, op, rest, rfl, hmade, hn, hdel, hlow⟩ := hl
  have hsplit : before ++ (first ++ op :: rest) = (before ++ first ++ [op]) ++ rest := by simp
  rw [hsplit] at hlt ⊢
  have hlt' := released_prefix_lt hlt
  rw [← table_run_append] at hmade
  rw [← table_run_append, ← List.append_assoc] at hlow
  obtain ⟨hfresh, -, o, -, hlive⟩ := fresh_of_answer hlt' hmade hn
  constructor
  · have hreset' : .reset ∉ rest := fun hm =>
      hreset (List.mem_append_right _ (List.mem_cons_of_mem _ hm))
    have := (mem_live_after_iff hlt hreset' hlive).2 ⟨hdel, hlow⟩
    exact List.mem_map_of_mem (f := Reference.handle) this
  · intro hold
    have c := consistent_run limit before fun i =>
      released_prefix_lt (released_prefix_lt hlt') i
    exact hfresh (mem_issued_run (c.issued_of_live _ hold) first)

/-- The references are those that were there and were not deleted, exactly if no frame was closed
that owned one of them and nothing is left over. -/
theorem resolve_kept_iff (hreset : .reset ∉ ops) :
    (∀ h o, (History.run limit (before ++ ops)).table.resolve h = some o ↔
      (History.run limit before).table.resolve h = some o ∧ .delete h ∉ ops) ↔
    (∀ h o, (History.run limit before).table.resolve h = some o → .delete h ∉ ops →
      (History.run limit before).table.ownerOf h.index ≤
        (History.run limit before).table.lowest ops) ∧
    ∀ h, ¬ Leftover (History.run limit before).table ops h := by
  have c := consistent_run limit before (released_prefix_lt hlt)
  have c' := consistent_run limit _ hlt
  constructor
  · intro hkept
    constructor
    · intro h o ho hdel
      obtain ⟨r', hm', he, -⟩ := (c'.resolve_iff h o).1 ((hkept h o).2 ⟨ho, hdel⟩)
      obtain ⟨r, hm, rfl, rfl⟩ := (c.resolve_iff h o).1 ho
      by_cases hold : r' ∈ (History.run limit before).ledger.live
      · rw [List.inj_on_of_nodup_map c.handles_nodup hold hm he] at hm'
        rw [← ((c.live r).1 hm).2]
        exact ((mem_live_after_iff hlt hreset hm).1 hm').2
      · have hleft := leftover_of_mem hlt hreset hm' hold
        rw [he] at hleft
        exact absurd (List.mem_map_of_mem hm) (hleft.mem hlt hreset).2
    · intro h hl
      obtain ⟨hin, hout⟩ := hl.mem hlt hreset
      obtain ⟨o, ho⟩ := isLive_iff.1 ((c'.mem_handles_iff h).1 hin)
      have hold := isLive_iff.2 ⟨o, ((hkept h o).1 ho).1⟩
      exact hout ((c.mem_handles_iff h).2 hold)
  · rintro ⟨hstays, hnone⟩ h o
    constructor
    · intro ho
      obtain ⟨r, hm, rfl, rfl⟩ := (c'.resolve_iff h o).1 ho
      by_cases hold : r ∈ (History.run limit before).ledger.live
      · exact ⟨((c.live r).1 hold).1, ((mem_live_after_iff hlt hreset hold).1 hm).1⟩
      · exact absurd (leftover_of_mem hlt hreset hm hold) (hnone _)
    · rintro ⟨ho, hdel⟩
      obtain ⟨r, hm, rfl, rfl⟩ := (c.resolve_iff h o).1 ho
      have howner := hstays _ _ ho hdel
      rw [← ((c.live r).1 hm).2] at howner
      have := (mem_live_after_iff hlt hreset hm).2 ⟨hdel, howner⟩
      exact (c'.resolve_iff _ _).2 ⟨r, this, rfl, rfl⟩

end Leftover

end GuestBoundary.Locals
