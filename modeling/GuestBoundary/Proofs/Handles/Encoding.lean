import GuestBoundary.Proofs.Globals.Retirement
import GuestBoundary.Proofs.Locals.Nesting

/-!
# Slots in words

A handle is a word of three fields side by side (`raw_encode`), and reading it is shifting and
masking (`index_eq`, `generation_eq`, `tag_eq`).  Words of slots whose fields fit are never null,
no two slots have one word, and every word with a tag is the word of a slot (`Handle.Fits`).  A
table gives out the words of its own slots, and all of those fit: there are never more slots than
the limit of the table allows, as long as no global slot has run out of generations
(`Locals.Names`, `Globals.Names`).
-/

namespace GuestBoundary

namespace Handle

/-! ## Fields of a word -/

/-- The fields lie side by side: the index above 26 bits, the generation above two. -/
theorem raw_encode (index generation : Nat) (kind : RefKind) :
    (encode index generation kind).raw =
      UInt64.ofNat index <<< 26 ||| (UInt64.ofNat generation &&& 0xffffff) <<< 2 |||
        UInt64.ofNat kind.code := by
  have hk := kind.code_lt
  have hindex : (UInt64.ofNat index <<< 26).toNat = 2 ^ 26 * (index % 2 ^ 38) := by
    rw [UInt64.toNat_shiftLeft, UInt64.toNat_ofNat', Nat.shiftLeft_eq]
    simp only [UInt64.toNat_ofNat, Nat.reducePow, Nat.reduceMod]
    omega
  have hgeneration : ((UInt64.ofNat generation &&& 0xffffff) <<< 2).toNat =
      2 ^ 2 * (generation % 2 ^ 24) := by
    have hmask : generation % 2 ^ 64 &&& 0xffffff = generation % 2 ^ 24 := by
      rw [Nat.and_two_pow_sub_one_eq_mod _ 24, Nat.mod_mod_of_dvd _ (by decide)]
    rw [UInt64.toNat_shiftLeft, UInt64.toNat_and, UInt64.toNat_ofNat', Nat.shiftLeft_eq]
    simp only [UInt64.toNat_ofNat, Nat.reducePow, Nat.reduceMod] at hmask ⊢
    omega
  have hcode : (UInt64.ofNat kind.code).toNat = kind.code := by
    rw [UInt64.toNat_ofNat']
    omega
  -- no field reaches into the next one, so putting them together is adding them
  have hlow := Nat.two_pow_add_eq_or_of_lt (i := 2) (b := kind.code) hk (generation % 2 ^ 24)
  have hword := Nat.two_pow_add_eq_or_of_lt (i := 26)
    (b := 2 ^ 2 * (generation % 2 ^ 24) + kind.code) (by omega) (index % 2 ^ 38)
  apply UInt64.toNat_inj.1
  rw [UInt64.toNat_or, UInt64.toNat_or, hindex, hgeneration, hcode, Nat.or_assoc, ← hlow, ← hword,
    encode, UInt64.toNat_ofNat', indexUnit, generations]
  omega

theorem index_eq (h : Handle) : h.index = (h.raw >>> 26).toNat := by
  rw [UInt64.toNat_shiftRight, Nat.shiftRight_eq_div_pow]
  rfl

theorem generation_eq (h : Handle) : h.generation = (h.raw >>> 2 &&& 0xffffff).toNat := by
  rw [UInt64.toNat_and, UInt64.toNat_shiftRight, Nat.shiftRight_eq_div_pow]
  exact (Nat.and_two_pow_sub_one_eq_mod _ 24).symm

theorem tag_eq (h : Handle) : h.tag = .ofCode (h.raw &&& 3).toNat := by
  rw [UInt64.toNat_and]
  exact congrArg RefKind.ofCode (Nat.and_two_pow_sub_one_eq_mod _ 2).symm

theorem tag_eq_invalid_iff (h : Handle) : h.tag = .invalid ↔ h.raw &&& 3 = 0 := by
  have hlt : (h.raw &&& 3).toNat < 4 := by
    rw [UInt64.toNat_and]
    exact Nat.lt_succ_of_le Nat.and_le_right
  rw [tag_eq, ← UInt64.toNat_inj]
  refine ⟨fun hinvalid => ?_, fun hzero => by rw [hzero]; rfl⟩
  rw [← RefKind.code_ofCode hlt, hinvalid]
  rfl

/-! ## Words of slots -/

/-- The fields of a slot have room in a word. -/
structure Fits (index generation : Nat) (kind : RefKind) : Prop where
  index : index ≤ maxIndex
  generation : generation < generations
  kind : kind ≠ .invalid

variable {index generation index' generation' : Nat} {kind kind' : RefKind}

theorem Fits.encode_ne_null (fits : Fits index generation kind) :
    encode index generation kind ≠ .null := by
  intro hnull
  have htag : (encode index generation kind).tag = kind := tag_encode fits.index kind
  rw [hnull] at htag
  exact fits.kind htag.symm

/-- Slots with one word are one slot. -/
theorem Fits.eq_of_encode_eq (fits : Fits index generation kind)
    (fits' : Fits index' generation' kind')
    (hraw : (encode index generation kind).raw = (encode index' generation' kind').raw) :
    index = index' ∧ generation = generation' ∧ kind = kind' := by
  have heq : encode index generation kind = encode index' generation' kind' :=
    congrArg Handle.mk hraw
  refine ⟨?_, ?_, ?_⟩
  · rw [← index_encode fits.index, heq, index_encode fits'.index]
  · rw [← generation_encode fits.index fits.generation, heq,
      generation_encode fits'.index fits'.generation]
  · exact (tag_encode fits.index kind).symm.trans
      ((congrArg Handle.tag heq).trans (tag_encode fits'.index kind'))

/-- The fields of any word have room in a word. -/
theorem fits_of_tag {h : Handle} (htag : h.tag ≠ .invalid) : Fits h.index h.generation h.tag where
  index := by
    have := h.raw.toNat_lt
    unfold Handle.index indexUnit maxIndex
    omega
  generation := Nat.mod_lt _ (by decide)
  kind := htag

end Handle

/-! ## Words that tables give out -/

namespace Locals

variable {α : Type} {t t' : Locals α} {h : Handle} {o : α}

/-- The handle is the word of the slot that holds the object, in the generation of that slot. -/
def Names (t : Locals α) (h : Handle) (o : α) : Prop :=
  ∃ index generation, t.slots[index]? = some (some o) ∧
    t.generations[index]? = some generation ∧ Handle.Fits index generation .local ∧
    h = .encode index generation .local

theorem WellFormed.names_of_create (wf : t.WellFormed) (hc : t.create (some o) = .ok (h, t')) :
    t'.Names h o := by
  rw [create_some] at hc
  cases hv : t.vacancy? with
  | none =>
    rw [hv] at hc
    cases hc
  | some v =>
    obtain ⟨i, free⟩ := v
    rw [hv] at hc
    obtain ⟨rfl, rfl⟩ := Prod.mk.inj (Except.ok.inj hc)
    obtain ⟨-, hi, hlim, -⟩ := wf.vacancy hv
    have hgenerations : (t.fill i free o).generations[i]? = some (t.generations[i]?.getD 0) := by
      rw [getElem?_generations_fill (Nat.le_trans hi wf.size_le_generations), if_pos rfl]
    have hslot : (t.fill i free o).occupant? i = some o := by
      rw [occupant?_fill hi, if_pos rfl]
    refine ⟨i, _, ?_, hgenerations, ⟨?_, ?_, nofun⟩, ?_⟩
    · rwa [occupant?, Option.join_eq_some_iff] at hslot
    · exact Nat.le_of_lt (Nat.lt_of_lt_of_le hlim wf.limit_le)
    · exact (wf.fill hv o).generation_lt i _ hgenerations
    · rw [handleAt, hgenerations]
      rfl

/-- What an operation gives out is the word of the slot that holds the object it was asked for. -/
theorem WellFormed.names_of_answer (wf : t.WellFormed) {op : Op α}
    (ha : (t.perform op).1 = .handle h) (hn : h ≠ .null) :
    ∃ o, op.object? = some o ∧ (t.perform op).2.Names h o := by
  cases op with
  | create o =>
    rw [Locals.perform] at ha ⊢
    cases hc : t.create o with
    | error e => rw [hc] at ha; cases ha
    | ok made =>
      rw [hc] at ha
      obtain rfl := Answer.handle.inj ha
      cases o with
      | none => cases hc; exact absurd rfl hn
      | some o => exact ⟨o, rfl, wf.names_of_create hc⟩
  | pop result =>
    rw [Locals.perform, pop?, close?_eq] at ha ⊢
    cases ho : t.outer with
    | nil => rw [ho] at ha; cases ha
    | cons frame outer =>
      rw [ho] at ha
      dsimp only [Option.map_some] at ha ⊢
      cases hc : (t.closed frame outer).create result with
      | error e => rw [hc] at ha; cases ha
      | ok made =>
        rw [hc] at ha
        obtain rfl := Answer.handle.inj ha
        cases result with
        | none => cases hc; exact absurd rfl hn
        | some o => exact ⟨o, rfl, (wf.closed ho).names_of_create hc⟩
  | delete h' => simp only [Locals.perform] at ha; split at ha <;> cases ha
  | push n => simp only [Locals.perform] at ha; split at ha <;> cases ha
  | ensure n => simp only [Locals.perform] at ha; split at ha <;> cases ha
  | reset => cases ha

end Locals

namespace Globals

variable {α : Type} {t : Globals α} {h : Handle} {r : Referent α}

/-- The handle is the word of the slot that holds the occupant, in the generation of that slot. -/
def Names (t : Globals α) (h : Handle) (r : Referent α) : Prop :=
  ∃ index generation, t.slots[index]? = some ⟨generation, r⟩ ∧
    Handle.Fits index generation r.kind ∧ h = .encode index generation r.kind

theorem WellFormed.names_fill (wf : t.WellFormed) (hlim : t.live < t.limit) (hr : r ≠ .vacant) :
    (t.fill r).Names (t.nextHandle r.kind) r := by
  refine ⟨t.vacancy.1, _, ?_, ⟨wf.vacancy_le_maxIndex hlim, wf.generation_lt _, ?_⟩, rfl⟩
  · rw [wf.getElem?_slots_fill, if_pos rfl]
  · exact mt (kind_eq_invalid_iff r).1 hr

/-- What an operation gives out is the word of the slot that holds what it was asked for. -/
theorem WellFormed.names_of_answer (wf : t.WellFormed) {op : Op α}
    (ha : (t.perform op).1 = .handle h) (hn : h ≠ .null) :
    ∃ r, op.referent? = some r ∧ (t.perform op).2.Names h r := by
  cases hr : op.referent? with
  | some r =>
    have hvacant := Op.ne_vacant_of_referent? hr
    rw [wf.perform_of_referent? hr] at ha ⊢
    split at ha
    case isTrue => cases ha
    case isFalse hroom =>
      obtain rfl := Answer.handle.inj ha
      rw [if_neg hroom]
      exact ⟨r, rfl, wf.names_fill (Nat.lt_of_not_le hroom) hvacant⟩
  | none =>
    exfalso
    cases op with
    | strong o =>
      obtain rfl := Option.map_eq_none_iff.1 hr
      exact hn (Answer.handle.inj ha).symm
    | weak o =>
      obtain rfl := Option.map_eq_none_iff.1 hr
      exact hn (Answer.handle.inj ha).symm
    | delete h' => simp only [perform] at ha; split at ha <;> cases ha

end Globals

/-- Fields are put into a word and taken out of it by shifts and masks.  A slot whose fields fit has
a word of its own, which is not null and tells its fields, and every word with a tag is that of a
slot.  Whatever is asked of tables of any limits, their slots fit, and the handles that they give
out are the words of their slots. -/
theorem handles_are_words_of_slots (α : Type) :
    (∀ index generation kind, (Handle.encode index generation kind).raw =
      UInt64.ofNat index <<< 26 ||| (UInt64.ofNat generation &&& 0xffffff) <<< 2 |||
        UInt64.ofNat kind.code) ∧
    (∀ h : Handle, h.index = (h.raw >>> 26).toNat ∧
      h.generation = (h.raw >>> 2 &&& 0xffffff).toNat ∧ h.tag = .ofCode (h.raw &&& 3).toNat) ∧
    (∀ index generation kind, Handle.Fits index generation kind →
      Handle.encode index generation kind ≠ .null ∧
      (Handle.encode index generation kind).index = index ∧
      (Handle.encode index generation kind).generation = generation ∧
      (Handle.encode index generation kind).tag = kind) ∧
    (∀ index generation kind index' generation' kind', Handle.Fits index generation kind →
      Handle.Fits index' generation' kind' →
      (Handle.encode index generation kind).raw = (Handle.encode index' generation' kind').raw →
      index = index' ∧ generation = generation' ∧ kind = kind') ∧
    (∀ h : Handle, h.raw &&& 3 ≠ 0 → Handle.Fits h.index h.generation h.tag ∧
      Handle.encode h.index h.generation h.tag = h) ∧
    (∀ limit (ops : List (Locals.Op α)) (t : Locals α), t = (Locals.History.run limit ops).table →
      (∀ index < t.slots.size, index ≤ Handle.maxIndex) ∧
      ∀ op h, (t.perform op).1 = .handle h → h ≠ .null →
        ∃ o, op.object? = some o ∧ (t.perform op).2.Names h o) ∧
    ∀ limit (ops : List (Globals.Op α)) (t : Globals α), t = (Globals.History.run limit ops).table →
      (∀ index, (Globals.History.run limit ops).released index < Handle.generations) →
      (∀ index < t.slots.size, index ≤ Handle.maxIndex) ∧
      ∀ op h, (t.perform op).1 = .handle h → h ≠ .null →
        ∃ r, op.referent? = some r ∧ (t.perform op).2.Names h r := by
  refine ⟨Handle.raw_encode, fun h => ⟨h.index_eq, h.generation_eq, h.tag_eq⟩,
    fun index generation kind fits => ?_,
    fun _ _ _ _ _ _ fits fits' => fits.eq_of_encode_eq fits', fun h htag => ?_,
    fun limit ops t ht => ?_, fun limit ops t ht hlt => ?_⟩
  · exact ⟨fits.encode_ne_null, Handle.index_encode fits.index kind,
      Handle.generation_encode fits.index fits.generation kind, Handle.tag_encode fits.index kind⟩
  · exact ⟨Handle.fits_of_tag (mt h.tag_eq_invalid_iff.1 htag), h.encode_fields⟩
  · have wf : t.WellFormed := Locals.Reachable.wellFormed ⟨limit, ops, ht⟩
    exact ⟨fun _ => wf.index_le, fun _ _ => wf.names_of_answer⟩
  · subst ht
    have wf := (Globals.consistent_run limit ops hlt).wellFormed
    have hsize := Nat.le_trans wf.size_le_limit wf.limit_le
    exact ⟨fun _ hi => Nat.le_of_lt (Nat.lt_of_lt_of_le hi hsize), fun _ _ => wf.names_of_answer⟩

/-- The largest fields have a word; so do the slots of a local reference that was carried over and
of a weak reference in a slot that was released. -/
theorem largest_and_reused_slots_have_words :
    let largest := Handle.encode Handle.maxIndex (Handle.generations - 1) .weakGlobal
    let carried : Locals Nat :=
      (Locals.History.run 20 [.create (some 10), .push 4, .create (some 20)]).table
    let reused : Globals Nat :=
      (Globals.History.run 2 [.strong (some 10), .delete (.encode 0 0 .global)]).table
    (largest ≠ .null ∧ largest.index = Handle.maxIndex ∧
      largest.generation = Handle.generations - 1 ∧ largest.tag = .weakGlobal) ∧
    Handle.encode (Handle.mk 0x401).index (Handle.mk 0x401).generation .local = ⟨0x401⟩ ∧
    (∃ o, some 30 = some o ∧
      (carried.perform (.pop (some 30))).2.Names (.encode 1 1 .local) o) ∧
    ∃ r, some (Referent.weak 40) = some r ∧
      (reused.perform (.weak (some 40))).2.Names (.encode 0 1 .weakGlobal) r := by
  intro largest carried reused
  obtain ⟨-, -, hword, -, hraw, hlocals, hglobals⟩ := handles_are_words_of_slots Nat
  refine ⟨hword _ _ _ ⟨by decide, by decide, by decide⟩, (hraw ⟨0x401⟩ (by decide)).2, ?_, ?_⟩
  · exact (hlocals 20 _ carried rfl).2 (.pop (some 30)) _ rfl (by decide)
  · refine (hglobals 2 _ reused rfl fun i => ?_).2 (.weak (some 40)) _ rfl (by decide)
    exact Nat.lt_of_le_of_lt (Globals.History.released_run_le_length 2 _ i) (by decide)

end GuestBoundary
