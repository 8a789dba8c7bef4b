import GuestBoundary.Proofs.Text.Grammar

/-!
# Lenient reading from left to right

Lenient reading cuts bytes into pieces, each of them a sequence or one stray byte at which no
sequence fits (`Scan`), and there is one way to do so.  A byte that is no continuation byte is never
inside a sequence, so the pieces of bytes are those in front of it and those from it on
(`Scan.append`): damage does not spread beyond the next lead byte.
-/

namespace GuestBoundary.Text.Modified

/-! ## Continuation bytes -/

/-- A byte that goes on with a sequence. -/
def IsContinuation (b : UInt8) : Prop := 0x80 ≤ b.toNat ∧ b.toNat ≤ 0xbf

instance (b : UInt8) : Decidable (IsContinuation b) := inferInstanceAs (Decidable (_ ∧ _))

theorem isContinuation_ofNat {n : Nat} (h : n < 64) : IsContinuation (UInt8.ofNat (0x80 + n)) := by
  rw [IsContinuation, UInt8.toNat_ofNat']
  omega

theorem not_isContinuation_ofNat {n : Nat} (h : n < 0x80 ∨ 0xc0 ≤ n) (hbyte : n < 256) :
    ¬ IsContinuation (UInt8.ofNat n) := by
  rw [IsContinuation, UInt8.toNat_ofNat']
  omega

/-- The bytes behind the first one of a sequence are continuation bytes, and the first one is not. -/
theorem Sequence.exists_lead {seq : List UInt8} {us : List Unit16} (h : Sequence seq us) :
    ∃ lead more, seq = lead :: more ∧ ¬ IsContinuation lead ∧ ∀ b ∈ more, IsContinuation b := by
  cases h with
  | one h h' => exact ⟨_, _, rfl, not_isContinuation_ofNat (by omega) (by omega), nofun⟩
  | two ha hb =>
    refine ⟨_, _, rfl, not_isContinuation_ofNat (by omega) (by omega), ?_⟩
    simp only [List.forall_mem_cons, isContinuation_ofNat hb]
    exact ⟨trivial, nofun⟩
  | three ha hb hc =>
    refine ⟨_, _, rfl, not_isContinuation_ofNat (by omega) (by omega), ?_⟩
    simp only [List.forall_mem_cons, isContinuation_ofNat hb, isContinuation_ofNat hc]
    exact ⟨trivial, trivial, nofun⟩
  | four ha hb hc hd | pair ha hb hc hd =>
    refine ⟨_, _, rfl, not_isContinuation_ofNat (by omega) (by omega), ?_⟩
    simp only [List.forall_mem_cons, isContinuation_ofNat hb, isContinuation_ofNat hc,
      isContinuation_ofNat hd]
    exact ⟨trivial, trivial, trivial, nofun⟩

/-- The bytes do not start inside a sequence: there are none, or the first one is no continuation
byte. -/
def StartsFresh (bytes : List UInt8) : Prop := ∀ b ∈ bytes.head?, ¬ IsContinuation b

/-- What starts with a sequence starts fresh. -/
theorem startsFresh_of_fits {bytes : List UInt8} (h : Fits bytes) : StartsFresh bytes := by
  obtain ⟨seq, us, rest, hseq, rfl⟩ := h
  obtain ⟨lead, more, rfl, hlead, -⟩ := hseq.exists_lead
  rintro b hb
  cases hb
  exact hlead

theorem startsFresh_encode (us : List Unit16) : StartsFresh (encode us) := by
  cases us with
  | nil => nofun
  | cons u us =>
    obtain ⟨seq, hseq, hbytes⟩ := exists_of_sequence? (sequence?_encodeUnit u (encode us))
    rw [encode_cons]
    exact startsFresh_of_fits ⟨seq, [u], encode us, hseq, hbytes⟩

/-- No sequence reaches into bytes that start fresh. -/
theorem fits_append_iff {front bytes : List UInt8} (hne : front ≠ []) (h : StartsFresh bytes) :
    Fits (front ++ bytes) ↔ Fits front := by
  constructor
  · rintro ⟨seq, us, rest, hseq, heq⟩
    obtain ⟨more, rfl, rfl⟩ | ⟨more, rfl, -⟩ := List.append_eq_append_iff.1 heq
    · cases more with
      | nil =>
        rw [List.append_nil] at hseq
        exact ⟨front, us, [], hseq, (List.append_nil _).symm⟩
      | cons b more =>
        -- The sequence would go on with the first of the bytes.
        obtain ⟨lead, tail, hsplit, -, htail⟩ := hseq.exists_lead
        obtain ⟨c, front, rfl⟩ := List.exists_cons_of_ne_nil hne
        obtain ⟨rfl, rfl⟩ := List.cons.inj hsplit
        exact absurd (htail b (List.mem_append_right _ List.mem_cons_self)) (h b rfl)
    · exact ⟨seq, us, more, hseq, rfl⟩
  · rintro ⟨seq, us, rest, hseq, rfl⟩
    exact ⟨seq, us, rest ++ bytes, hseq, List.append_assoc ..⟩

/-- The sequence at the front is the only one there. -/
theorem Sequence.append_inj {seq seq' rest rest' : List UInt8} {us us' : List Unit16}
    (h : Sequence seq us) (h' : Sequence seq' us') (heq : seq ++ rest = seq' ++ rest') :
    seq = seq' ∧ us = us' ∧ rest = rest' := by
  have hread := sequence?_of_sequence h rest
  rw [heq, sequence?_of_sequence h' rest'] at hread
  obtain ⟨rfl, rfl⟩ := Prod.mk.inj (Option.some.inj hread)
  exact ⟨List.append_cancel_right heq, rfl, rfl⟩

/-! ## Pieces -/

/-- What is read at once. -/
inductive Piece where
  /-- A sequence and its code units. -/
  | sequence (bytes : List UInt8) (units : List Unit16)
  /-- A byte at which no sequence fits. -/
  | stray (byte : UInt8)
  deriving DecidableEq

namespace Piece

/-- The bytes that the piece takes. -/
def bytes : Piece → List UInt8
  | sequence bytes _ => bytes
  | stray b => [b]

/-- The code units of the piece: one replacement for a stray byte. -/
def units : Piece → List Unit16
  | sequence _ us => us
  | stray _ => [0xFFFD]

end Piece

/-- The pieces of bytes from left to right. -/
inductive Scan : List UInt8 → List Piece → Prop where
  | nil : Scan [] []
  | sequence {seq rest : List UInt8} {us : List Unit16} {pieces : List Piece}
      (front : Sequence seq us) (more : Scan rest pieces) :
      Scan (seq ++ rest) (.sequence seq us :: pieces)
  | stray {b : UInt8} {rest : List UInt8} {pieces : List Piece} (misfit : ¬ Fits (b :: rest))
      (more : Scan rest pieces) : Scan (b :: rest) (.stray b :: pieces)

theorem exists_scan (bytes : List UInt8) : ∃ pieces, Scan bytes pieces := by
  induction hn : bytes.length using Nat.strongRecOn generalizing bytes with
  | _ n ih =>
    by_cases h : Fits bytes
    case pos =>
      obtain ⟨seq, us, rest, hseq, rfl⟩ := h
      have hpos := hseq.length_pos
      rw [List.length_append] at hn
      obtain ⟨pieces, hpieces⟩ := ih rest.length (by omega) rest rfl
      exact ⟨_, .sequence hseq hpieces⟩
    case neg =>
      cases bytes with
      | nil => exact ⟨[], .nil⟩
      | cons b rest =>
        obtain ⟨pieces, hpieces⟩ := ih rest.length (hn ▸ Nat.lt_succ_self _) rest rfl
        exact ⟨_, .stray h hpieces⟩

namespace Scan

variable {a b bytes : List UInt8} {pieces pieces' : List Piece}

theorem flatMap_bytes (h : Scan bytes pieces) : pieces.flatMap Piece.bytes = bytes := by
  induction h with
  | nil => rfl
  | sequence _ _ ih => rw [List.flatMap_cons, ih, Piece.bytes]
  | stray _ _ ih =>
    rw [List.flatMap_cons, ih, Piece.bytes]
    rfl

theorem flatMap_units (h : Scan bytes pieces) : pieces.flatMap Piece.units = decodeLossy bytes := by
  induction h with
  | nil => exact decodeLossy_nil.symm
  | sequence front _ ih =>
    rw [List.flatMap_cons, ih, Piece.units,
      decodeLossy_of_sequence? (sequence?_of_sequence front _)]
  | stray misfit _ ih =>
    rw [List.flatMap_cons, ih, Piece.units, decodeLossy_of_not_fits misfit (List.cons_ne_nil _ _)]
    rfl

theorem unique (h : Scan bytes pieces) (h' : Scan bytes pieces') : pieces' = pieces := by
  induction h generalizing pieces' with
  | nil =>
    generalize hbytes : ([] : List UInt8) = bytes at h'
    cases h' with
    | nil => rfl
    | sequence front _ =>
      have hpos := front.length_pos
      rw [(List.append_eq_nil_iff.1 hbytes.symm).1] at hpos
      exact absurd hpos (Nat.lt_irrefl 0)
    | stray => cases hbytes
  | @sequence seq rest us pieces front more ih =>
    generalize hbytes : seq ++ rest = bytes at h'
    cases h' with
    | nil =>
      have hpos := front.length_pos
      rw [(List.append_eq_nil_iff.1 hbytes).1] at hpos
      exact absurd hpos (Nat.lt_irrefl 0)
    | sequence front' more' =>
      obtain ⟨rfl, rfl, rfl⟩ := front.append_inj front' hbytes
      rw [ih more']
    | stray misfit => exact absurd ⟨seq, us, rest, front, hbytes.symm⟩ misfit
  | @stray b rest pieces misfit more ih =>
    generalize hbytes : b :: rest = bytes at h'
    cases h' with
    | nil => cases hbytes
    | sequence front => exact absurd ⟨_, _, _, front, hbytes⟩ misfit
    | stray _ more' =>
      obtain ⟨rfl, rfl⟩ := List.cons.inj hbytes
      rw [ih more']

/-- Bytes that start fresh have pieces of their own. -/
theorem append (ha : Scan a pieces) (hb : Scan b pieces') (h : StartsFresh b) :
    Scan (a ++ b) (pieces ++ pieces') := by
  induction ha with
  | nil => exact hb
  | sequence front _ ih =>
    rw [List.append_assoc]
    exact .sequence front ih
  | stray misfit _ ih => exact .stray (mt (fits_append_iff (List.cons_ne_nil _ _) h).1 misfit) ih

end Scan

/-! ## Lenient reading -/

/-- Reading starts anew where no sequence can be under way. -/
theorem decodeLossy_append_of_startsFresh (a : List UInt8) {b : List UInt8} (h : StartsFresh b) :
    decodeLossy (a ++ b) = decodeLossy a ++ decodeLossy b := by
  obtain ⟨pieces, ha⟩ := exists_scan a
  obtain ⟨pieces', hb⟩ := exists_scan b
  rw [← (ha.append hb h).flatMap_units, List.flatMap_append, ha.flatMap_units, hb.flatMap_units]

theorem decodeLossy_of_spells {bytes : List UInt8} {us : List Unit16} (h : Spells bytes us) :
    decodeLossy bytes = us := by
  have := decodeLossy_append h []
  rwa [List.append_nil, decodeLossy_nil, List.append_nil] at this

theorem decodeLossy_encode (us : List Unit16) : decodeLossy (encode us) = us :=
  decodeLossy_of_spells (decode_eq_ok_iff.1 (decodeFrom_encode 0 us))

/-- What follows a byte that is no continuation byte is read as it stands; bytes that read strictly
read the same leniently; otherwise a replacement stands for the byte that is reported and reading
starts anew behind it; altogether one replacement stands for each byte at which no sequence fits,
going from left to right, and nothing else is skipped; and garbage between two texts leaves both
texts intact. -/
theorem decodeLossy_resynchronises :
    (∀ a b, StartsFresh b → decodeLossy (a ++ b) = decodeLossy a ++ decodeLossy b) ∧
    (∀ bytes us, decode bytes = .ok us → decodeLossy bytes = us) ∧
    (∀ bytes k, decode bytes = .error k → ∃ us, decode (bytes.take k) = .ok us ∧
      decodeLossy bytes = us ++ 0xFFFD :: decodeLossy (bytes.drop (k + 1))) ∧
    (∀ bytes, ∃ pieces, Scan bytes pieces ∧ (∀ other, Scan bytes other → other = pieces) ∧
      pieces.flatMap Piece.bytes = bytes ∧ decodeLossy bytes = pieces.flatMap Piece.units) ∧
    ∀ us garbage vs,
      decodeLossy (encode us ++ garbage ++ encode vs) = us ++ decodeLossy garbage ++ vs := by
  refine ⟨fun a _ => decodeLossy_append_of_startsFresh a,
    fun bytes us h => decodeLossy_of_spells (decode_eq_ok_iff.1 h),
    fun bytes k => decodeLossy_of_decode_eq_error, fun bytes => ?_, fun us garbage vs => ?_⟩
  · obtain ⟨pieces, h⟩ := exists_scan bytes
    exact ⟨pieces, h, fun _ => h.unique, h.flatMap_bytes, h.flatMap_units.symm⟩
  · rw [decodeLossy_append_of_startsFresh _ (startsFresh_encode vs), decodeLossy_encode_append,
      decodeLossy_encode]

/-- A sequence of three bytes that breaks off in front of a letter is two stray bytes, and the
letter is read. -/
theorem decodeLossy_resynchronises_at_letter :
    StartsFresh [0x41] ∧ decode [0x41] = .ok [0x41] ∧ decode [0xE2, 0x82] = .error 0 ∧
      decodeLossy ([0xE2, 0x82] ++ [0x41]) = [0xFFFD, 0xFFFD, 0x41] := by
  obtain ⟨hfront, hstrict, hstop, -⟩ := decodeLossy_resynchronises
  have hfresh : StartsFresh [0x41] := by
    rintro b hb
    cases hb
    decide
  have hletter : decode [0x41] = .ok [0x41] := decodeFrom_encode 0 [0x41]
  have hnone : decode [] = .ok [] := decodeFrom_nil 0
  have hbroken : decode [0xE2, 0x82] = .error 0 :=
    decodeFrom_of_not_fits (sequence?_eq_none_iff.1 (by decide)) (by decide) 0
  have htail : decode [0x82] = .error 0 :=
    decodeFrom_of_not_fits (sequence?_eq_none_iff.1 (by decide)) (by decide) 0
  obtain ⟨us, hus, hlossy⟩ := hstop _ _ hbroken
  obtain ⟨us', hus', hlossy'⟩ := hstop _ _ htail
  obtain rfl := Except.ok.inj (hus.symm.trans hnone)
  obtain rfl := Except.ok.inj (hus'.symm.trans hnone)
  refine ⟨hfresh, hletter, hbroken, ?_⟩
  rw [hfront _ _ hfresh, hstrict _ _ hletter, hlossy]
  exact congrArg (fun us => 0xFFFD :: us ++ [0x41])
    (hlossy'.trans (congrArg (0xFFFD :: ·) (hstrict _ _ hnone)))

end GuestBoundary.Text.Modified
