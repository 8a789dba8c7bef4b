import GuestBoundary.Proofs.Globals.Ledger

/-!
# Tables whose slots run out

A slot that was released as often as there are generations is not used again.  So no handle is given
out twice, however often slots are released: a table and its ledger stay in step (`Keeps.perform`)
for as long as there is an index for every slot.
-/

namespace GuestBoundary.Globals

variable {α : Type} {t : Globals α} {h : Handle} {i j : Nat}

/-! ## What an operation does -/

theorem perform_of_referent? {op : Op α} {r : Referent α} (hr : op.referent? = some r) :
    t.perform op = t.made (t.insert r) := by
  cases op with
  | strong o =>
    obtain ⟨o, rfl, rfl⟩ := Option.map_eq_some_iff.1 hr
    rfl
  | weak o =>
    obtain ⟨o, rfl, rfl⟩ := Option.map_eq_some_iff.1 hr
    rfl
  | delete h => cases hr

/-- An operation that asks for no reference deletes one, or leaves everything alone. -/
theorem perform_of_referent?_none {op : Op α} (hr : op.referent? = none) :
    (∃ h, op = .delete h) ∨
      (t.perform op).2 = t ∧ ∀ l : Ledger α, l.note op (t.perform op).1 = l := by
  cases op with
  | strong o =>
    obtain rfl := Option.map_eq_none_iff.1 hr
    exact .inr ⟨rfl, fun _ => rfl⟩
  | weak o =>
    obtain rfl := Option.map_eq_none_iff.1 hr
    exact .inr ⟨rfl, fun _ => rfl⟩
  | delete h => exact .inl ⟨h, rfl⟩

/-- An operation that asks for a reference makes one, unless there is no room. -/
theorem Tidy.perform_of_referent? (tidy : t.Tidy) {op : Op α} {r : Referent α}
    (hr : op.referent? = some r) :
    t.perform op = if t.live ≥ t.limit then (.full (.globalLimit t.limit), t)
      else (.handle (t.nextHandle r.kind), t.fill r) := by
  rw [Globals.perform_of_referent? hr, tidy.insert_eq]
  split <;> rfl

theorem Op.ne_vacant_of_referent? {op : Op α} {r : Referent α} (hr : op.referent? = some r) :
    r ≠ .vacant := by
  rintro rfl
  cases op with
  | strong o => cases o <;> cases hr
  | weak o => cases o <;> cases hr
  | delete h => cases hr

/-- An operation makes a reference, or releases one, or does nothing. -/
theorem Tidy.perform_cases (tidy : t.Tidy) (op : Op α) :
    (∃ r, op.referent? = some r ∧ t.live < t.limit ∧
      t.perform op = (.handle (t.nextHandle r.kind), t.fill r)) ∨
    (∃ h, op = .delete h ∧ t.isLive h = true ∧ t.perform op = (.done, t.vacate h.index)) ∨
    ((t.perform op).2 = t ∧ ∀ l : Ledger α, l.note op (t.perform op).1 = l) := by
  cases hr : op.referent? with
  | some r =>
    rw [tidy.perform_of_referent? hr]
    split
    · exact .inr (.inr ⟨rfl, fun _ => rfl⟩)
    · exact .inl ⟨r, rfl, by omega, rfl⟩
  | none =>
    rcases perform_of_referent?_none (t := t) hr with ⟨h, rfl⟩ | hsame
    · simp only [perform, delete_eq]
      by_cases hl : t.isLive h = true
      · exact .inr (.inl ⟨h, rfl, hl, by rw [if_pos hl]⟩)
      · rw [if_neg hl]
        exact .inr (.inr ⟨rfl, fun _ => rfl⟩)
    · exact .inr (.inr hsame)

/-- Slots do not go away, and at most one is added. -/
theorem size_perform (t : Globals α) (op : Op α) :
    t.slots.size ≤ (t.perform op).2.slots.size ∧
      (t.perform op).2.slots.size ≤ t.slots.size + 1 := by
  cases hr : op.referent? with
  | some r =>
    rw [perform_of_referent? hr, insert]
    split
    · exact ⟨Nat.le_refl _, Nat.le_succ _⟩
    · split <;> simp [made]
  | none =>
    have hsize : (t.perform op).2.slots.size = t.slots.size := by
      rcases perform_of_referent?_none (t := t) hr with ⟨h, rfl⟩ | ⟨hsame, -⟩
      · simp only [perform, delete_eq]
        by_cases hl : t.isLive h = true
        · rw [if_pos hl]
          exact size_slots_vacate
        · rw [if_neg hl]
      · rw [hsame]
    omega

/-! ## Objects that a table keeps -/

theorem mem_objects_iff {o : α} : o ∈ t.objects ↔ ∃ i, t.referentOf i = .strong o := by
  rw [objects, List.mem_filterMap]
  constructor
  · rintro ⟨slot, hslot, ho⟩
    obtain ⟨i, hi, rfl⟩ := List.mem_iff_getElem.1 hslot
    rw [Array.length_toList] at hi
    refine ⟨i, ?_⟩
    rw [Array.getElem_toList] at ho
    rw [referentOf, Array.getElem?_eq_getElem hi, Option.map_some, Option.getD_some]
    cases hr : t.slots[i].referent with
    | strong p =>
      rw [hr] at ho
      cases ho
      rfl
    | vacant =>
      rw [hr] at ho
      cases ho
    | weak p =>
      rw [hr] at ho
      cases ho
  · rintro ⟨i, hi⟩
    have hlt : i < t.slots.size := lt_size_of_referentOf_ne (by rw [hi]; simp)
    rw [referentOf, Array.getElem?_eq_getElem hlt, Option.map_some, Option.getD_some] at hi
    exact ⟨t.slots[i], by simp, by rw [hi]⟩

theorem Tidy.mem_objects_fill (tidy : t.Tidy) {r : Referent α} {o : α} :
    o ∈ (t.fill r).objects ↔ r = .strong o ∨ o ∈ t.objects := by
  simp only [mem_objects_iff, tidy.referentOf_fill]
  constructor
  · rintro ⟨j, hj⟩
    split at hj
    · exact .inl hj
    · exact .inr ⟨j, hj⟩
  · rintro (hr | ⟨j, hj⟩)
    · exact ⟨t.vacancy.1, by rw [if_pos rfl, hr]⟩
    · refine ⟨j, ?_⟩
      rw [if_neg, hj]
      rintro rfl
      rw [tidy.vacancy_vacant] at hj
      cases hj

theorem mem_objects_of_vacate (hi : i < t.slots.size) {o : α} (ho : o ∈ (t.vacate i).objects) :
    o ∈ t.objects := by
  obtain ⟨j, hj⟩ := mem_objects_iff.1 ho
  rw [referentOf_vacate hi] at hj
  split at hj
  · cases hj
  · exact mem_objects_iff.2 ⟨j, hj⟩

/-- A weak reference keeps nothing. -/
theorem mem_objects_vacate_of_weak {o p : α} (hi : t.referentOf i = .weak p) :
    o ∈ (t.vacate i).objects ↔ o ∈ t.objects := by
  have hlt : i < t.slots.size := lt_size_of_referentOf_ne (by rw [hi]; simp)
  refine ⟨mem_objects_of_vacate hlt, fun ho => ?_⟩
  obtain ⟨j, hj⟩ := mem_objects_iff.1 ho
  refine mem_objects_iff.2 ⟨j, ?_⟩
  rw [referentOf_vacate hlt, if_neg, hj]
  rintro rfl
  rw [hi] at hj
  cases hj

theorem Op.eq_strong_of_referent? {op : Op α} {o : α} (h : op.referent? = some (.strong o)) :
    op = .strong (some o) := by
  cases op with
  | strong p => cases p <;> cases h; rfl
  | weak p => cases p <;> cases h
  | delete h' => cases h

theorem Op.eq_weak_of_referent? {op : Op α} {o : α} (h : op.referent? = some (.weak o)) :
    op = .weak (some o) := by
  cases op with
  | strong p => cases p <;> cases h
  | weak p => cases p <;> cases h; rfl
  | delete h' => cases h

/-- A table comes to keep no object but the one for which a strong reference is made. -/
theorem Tidy.mem_objects_of_perform (tidy : t.Tidy) {op : Op α} {o : α}
    (ho : o ∈ (t.perform op).2.objects) : op = .strong (some o) ∨ o ∈ t.objects := by
  rcases tidy.perform_cases op with ⟨r, hr, -, heq⟩ | ⟨h, -, hl, heq⟩ | ⟨heq, -⟩
  · rw [heq, tidy.mem_objects_fill] at ho
    refine ho.imp ?_ id
    rintro rfl
    exact Op.eq_strong_of_referent? hr
  · rw [heq] at ho
    exact .inr (mem_objects_of_vacate (lt_size_of_isLive hl) ho)
  · rw [heq] at ho
    exact .inr ho

/-- Making a weak reference keeps nothing. -/
theorem Tidy.mem_objects_perform_weak (tidy : t.Tidy) {p : Option α} {o : α} :
    o ∈ (t.perform (.weak p)).2.objects ↔ o ∈ t.objects := by
  rcases tidy.perform_cases (.weak p) with ⟨r, hr, -, heq⟩ | ⟨h, hop, -, -⟩ | ⟨heq, -⟩
  · rw [heq, tidy.mem_objects_fill]
    refine or_iff_right ?_
    rintro rfl
    cases Op.eq_strong_of_referent? hr
  · cases hop
  · rw [heq]

/-- Deleting a weak reference releases nothing. -/
theorem mem_objects_perform_delete {o p : α} (hr : t.occupant? h = some (.weak p)) :
    o ∈ (t.perform (.delete h)).2.objects ↔ o ∈ t.objects := by
  simp only [perform, delete_eq, if_pos (isLive_iff.2 ⟨_, hr⟩)]
  exact mem_objects_vacate_of_weak (occupant?_eq_some_iff.1 hr).2.1

/-! ## Words that are spent -/

/-- A slot that is not used again. -/
structure Retired (t : Globals α) (i : Nat) : Prop where
  lt_size : i < t.slots.size
  vacant : t.referentOf i = .vacant
  not_mem_free : i ∉ t.free

/-- No reference lives under a word, and none ever will: its generation is over, or its slot is not
used again. -/
def Spent (t : Globals α) (h : Handle) : Prop :=
  h.generation < t.generationOf h.index ∨ t.Retired h.index

theorem Retired.fill (tidy : t.Tidy) (hi : t.Retired i) (r : Referent α) :
    (t.fill r).Retired i := by
  have hne : i ≠ t.vacancy.1 := by
    rintro rfl
    unfold vacancy at hi
    split at hi
    next j free hf => exact hi.not_mem_free (by rw [hf]; exact List.mem_cons_self)
    next => exact Nat.lt_irrefl _ hi.lt_size
  constructor
  · rw [tidy.size_slots_fill]
    exact Nat.lt_of_lt_of_le hi.lt_size (Nat.le_max_left _ _)
  · rw [tidy.referentOf_fill, if_neg hne]
    exact hi.vacant
  · exact fun hmem => hi.not_mem_free (tidy.mem_vacancy hmem).1

theorem Spent.fill (tidy : t.Tidy) (hs : t.Spent h) (r : Referent α) : (t.fill r).Spent h := by
  rcases hs with hlt | hretired
  · exact .inl (by rwa [tidy.generationOf_fill])
  · exact .inr (hretired.fill tidy r)

theorem mem_free_vacate (hj : j ∈ (t.vacate i).free) :
    j ∈ t.free ∨ (j = i ∧ Handle.nextGeneration (t.generationOf i) ≠ 0) := by
  simp only [vacate] at hj
  split at hj
  · exact .inl hj
  next hne => exact (List.mem_append.1 hj).imp id fun h => ⟨List.mem_singleton.1 h, hne⟩

theorem Retired.vacate (hi : t.Retired i) (hj : t.referentOf j ≠ .vacant) :
    (t.vacate j).Retired i := by
  have hne : i ≠ j := by
    rintro rfl
    exact hj hi.vacant
  constructor
  · rw [size_slots_vacate]
    exact hi.lt_size
  · rw [referentOf_vacate (lt_size_of_referentOf_ne hj), if_neg hne]
    exact hi.vacant
  · exact fun hmem => (mem_free_vacate hmem).elim hi.not_mem_free fun h => hne h.1

/-- A slot that is released goes on to its next generation, or is not used again. -/
theorem vacate_next_or_retired (tidy : t.Tidy) (hi : t.referentOf i ≠ .vacant) :
    (t.vacate i).generationOf i = t.generationOf i + 1 ∨ (t.vacate i).Retired i := by
  have hlt := lt_size_of_referentOf_ne hi
  have hgeneration := tidy.generation_lt i
  by_cases hg : t.generationOf i + 1 < Handle.generations
  · left
    rw [generationOf_vacate hlt, if_pos rfl, Handle.nextGeneration, Nat.mod_eq_of_lt hg]
  · right
    have hzero : Handle.nextGeneration (t.generationOf i) = 0 := by
      rw [Handle.nextGeneration, show t.generationOf i + 1 = Handle.generations by omega,
        Nat.mod_self]
    constructor
    · rwa [size_slots_vacate]
    · rw [referentOf_vacate hlt, if_pos rfl]
    · intro hmem
      rcases mem_free_vacate hmem with hmem | ⟨-, hne⟩
      · exact hi (tidy.vacant_of_mem_free i hmem).2
      · exact hne hzero

theorem Spent.vacate (tidy : t.Tidy) (hs : t.Spent h) (hj : t.referentOf j ≠ .vacant) :
    (t.vacate j).Spent h := by
  rcases hs with hlt | hretired
  · by_cases hhj : h.index = j
    · subst hhj
      rcases vacate_next_or_retired tidy hj with hnext | hretired
      · left
        rw [hnext]
        omega
      · exact .inr hretired
    · left
      rwa [generationOf_vacate (lt_size_of_referentOf_ne hj), if_neg hhj]
  · exact .inr (hretired.vacate hj)

/-- A handle that is deleted is spent. -/
theorem spent_vacate_self (tidy : t.Tidy) (hl : t.isLive h = true) :
    (t.vacate h.index).Spent h := by
  obtain ⟨r, hr⟩ := isLive_iff.1 hl
  obtain ⟨hg, hr, -, hv⟩ := occupant?_eq_some_iff.1 hr
  refine (vacate_next_or_retired tidy (hr ▸ hv)).imp (fun hnext => ?_) id
  rw [hnext, hg]
  exact Nat.lt_succ_self _

/-- The next handle that is given out is not spent. -/
theorem Tidy.not_spent_nextHandle (tidy : t.Tidy) (hmax : t.vacancy.1 ≤ Handle.maxIndex)
    (k : RefKind) : ¬ t.Spent (t.nextHandle k) := by
  rw [Spent, nextHandle, Handle.index_encode hmax,
    Handle.generation_encode hmax (tidy.generation_lt _)]
  rintro (hlt | hretired)
  · exact Nat.lt_irrefl _ hlt
  · unfold vacancy at hretired
    split at hretired
    next i free hf => exact hretired.not_mem_free (by rw [hf]; exact List.mem_cons_self)
    next => exact Nat.lt_irrefl _ hretired.lt_size

/-! ## What the ledger notes -/

namespace Ledger

variable {l : Ledger α} {r : Referent α}

/-- An operation enters only what it asks for. -/
theorem of_mem_live_note {op : Op α} {a : Answer} (hm : (h, r) ∈ (l.note op a).live) :
    (h, r) ∈ l.live ∨ op.referent? = some r := by
  cases a with
  | handle h' =>
    simp only [note] at hm
    split at hm
    next p hp =>
      rcases List.mem_cons.1 hm with heq | hm
      · cases heq
        exact .inr hp
      · exact .inl hm
    next => exact .inl hm
  | done =>
    cases op with
    | delete h' => exact .inl (List.mem_filter.1 hm).1
    | strong o => exact .inl hm
    | weak o => exact .inl hm
  | full e => exact .inl hm
  | misuse v => exact .inl hm

/-- What is entered stays until it is deleted. -/
theorem mem_live_note {op : Op α} (a : Answer) (hm : (h, r) ∈ l.live) (hop : op ≠ .delete h) :
    (h, r) ∈ (l.note op a).live := by
  cases a with
  | handle h' =>
    simp only [note]
    split
    · exact List.mem_cons_of_mem _ hm
    · exact hm
  | done =>
    cases op with
    | delete h' =>
      refine List.mem_filter.2 ⟨hm, ?_⟩
      rw [bne_iff_ne]
      rintro rfl
      exact hop rfl
    | strong o => exact hm
    | weak o => exact hm
  | full e => exact hm
  | misuse v => exact hm

/-- A handle that is struck out stays so, if it is not given out again. -/
theorem not_mem_handles_note {op : Op α} {a : Answer} (hnodup : (l.note op a).issued.Nodup)
    (hi : h ∈ l.issued) (hl : h ∉ l.handles) :
    h ∈ (l.note op a).issued ∧ h ∉ (l.note op a).handles := by
  cases a with
  | handle h' =>
    simp only [note] at hnodup ⊢
    split at hnodup
    next p hp =>
      refine ⟨List.mem_cons_of_mem _ hi, fun hm => ?_⟩
      rcases List.mem_cons.1 hm with rfl | hm
      · exact (List.nodup_cons.1 hnodup).1 hi
      · exact hl hm
    next => exact ⟨hi, hl⟩
  | done =>
    cases op with
    | delete h' => exact ⟨hi, fun hm => hl ((List.filter_sublist.map _).subset hm)⟩
    | strong o => exact ⟨hi, hl⟩
    | weak o => exact ⟨hi, hl⟩
  | full e => exact ⟨hi, hl⟩
  | misuse v => exact ⟨hi, hl⟩

theorem mem_issued_note (op : Op α) (a : Answer) (hi : h ∈ l.issued) :
    h ∈ (l.note op a).issued := by
  cases a with
  | handle h' =>
    simp only [note]
    split
    · exact List.mem_cons_of_mem _ hi
    · exact hi
  | done => cases op <;> exact hi
  | full e => exact hi
  | misuse v => exact hi

end Ledger

/-! ## Tables that keep their ledgers -/

/-- A table holds what its ledger says, and a handle that was given out lives or is spent. -/
structure Keeps (t : Globals α) (l : Ledger α) : Prop where
  tidy : t.Tidy
  live : ∀ h r, (h, r) ∈ l.live ↔ t.occupant? h = some r
  spent : ∀ h ∈ l.issued, h ∈ l.handles ∨ t.Spent h
  issued_of_live : ∀ h ∈ l.handles, h ∈ l.issued
  issued_nodup : l.issued.Nodup

namespace Keeps

variable {l : Ledger α}

theorem empty (limit : Nat) : (Globals.empty limit : Globals α).Keeps ⟨[], []⟩ where
  tidy := tidy_empty limit
  live := by simp [occupant?, Globals.empty]
  spent := by simp
  issued_of_live := by simp [Ledger.handles]
  issued_nodup := List.nodup_nil

theorem mem_handles_iff (k : t.Keeps l) : h ∈ l.handles ↔ t.isLive h = true := by
  rw [isLive_iff, Ledger.handles, List.mem_map]
  constructor
  · rintro ⟨⟨h, r⟩, hm, rfl⟩
    exact ⟨r, (k.live h r).1 hm⟩
  · rintro ⟨r, hr⟩
    exact ⟨(h, r), (k.live h r).2 hr, rfl⟩

theorem nextHandle_not_mem_issued (k : t.Keeps l) (hmax : t.vacancy.1 ≤ Handle.maxIndex)
    (kind : RefKind) : t.nextHandle kind ∉ l.issued := by
  intro hmem
  rcases k.spent _ hmem with hl | hs
  · obtain ⟨r, hr⟩ := isLive_iff.1 (k.mem_handles_iff.1 hl)
    obtain ⟨-, hr, -, hv⟩ := occupant?_eq_some_iff.1 hr
    rw [nextHandle, Handle.index_encode hmax, k.tidy.vacancy_vacant] at hr
    exact hv hr.symm
  · exact k.tidy.not_spent_nextHandle hmax kind hs

theorem own (k : t.Keeps l) (hmax : t.vacancy.1 ≤ Handle.maxIndex) {r : Referent α}
    (hr : r ≠ .vacant) : (t.fill r).Keeps (l.own (t.nextHandle r.kind) r) where
  tidy := k.tidy.fill r
  live h p := by
    rw [k.tidy.occupant?_fill hmax hr, Ledger.own, List.mem_cons, k.live, Prod.mk.injEq]
  spent h hh := by
    rcases List.mem_cons.1 hh with rfl | hh
    · exact .inl List.mem_cons_self
    · exact (k.spent h hh).imp (List.mem_cons_of_mem _) fun hs => hs.fill k.tidy r
  issued_of_live h hh := by
    rcases List.mem_cons.1 hh with rfl | hh
    · exact List.mem_cons_self
    · exact List.mem_cons_of_mem _ (k.issued_of_live h hh)
  issued_nodup := List.nodup_cons.2 ⟨k.nextHandle_not_mem_issued hmax r.kind, k.issued_nodup⟩

theorem strike (k : t.Keeps l) (hl : t.isLive h = true) :
    (t.vacate h.index).Keeps (l.strike h) := by
  have hvacant : t.referentOf h.index ≠ .vacant := by
    obtain ⟨r, hr⟩ := isLive_iff.1 hl
    obtain ⟨-, hr, -, hv⟩ := occupant?_eq_some_iff.1 hr
    exact hr ▸ hv
  constructor
  case tidy => exact k.tidy.vacate hvacant
  case live =>
    intro h' r
    rw [occupant?_vacate hl, ← k.live, Ledger.strike, List.mem_filter, bne_iff_ne]
  case spent =>
    intro h' hh
    by_cases he : h' = h
    · subst he
      exact .inr (spent_vacate_self k.tidy hl)
    · refine (k.spent h' hh).imp (fun hm => ?_) fun hs => hs.vacate k.tidy hvacant
      obtain ⟨e, hlive, rfl⟩ := List.mem_map.1 hm
      exact List.mem_map_of_mem (List.mem_filter.2 ⟨hlive, by simpa using he⟩)
  case issued_of_live =>
    exact fun h' hh => k.issued_of_live h' ((List.filter_sublist.map _).subset hh)
  case issued_nodup => exact k.issued_nodup

/-- An operation keeps the table and its ledger in step, if there is an index for every slot. -/
theorem perform (k : t.Keeps l) (op : Op α)
    (hsize : (t.perform op).2.slots.size ≤ Handle.maxIndex + 1) :
    (t.perform op).2.Keeps (l.note op (t.perform op).1) := by
  rcases k.tidy.perform_cases op with ⟨r, ho, -, heq⟩ | ⟨h, rfl, hl, heq⟩ | ⟨hsame, hnote⟩
  · rw [heq, k.tidy.size_slots_fill] at hsize
    rw [heq]
    simp only [Ledger.note, ho]
    exact k.own (by omega) (Op.ne_vacant_of_referent? ho)
  · rw [heq]
    exact k.strike hl
  · rw [hnote, hsame]
    exact k

end Keeps

end GuestBoundary.Globals
