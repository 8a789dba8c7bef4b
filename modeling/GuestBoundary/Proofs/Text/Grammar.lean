import GuestBoundary.Proofs.Text.Modified

/-!
# The grammar of modified UTF-8

`Sequence` lists the forms a sequence can have, and `Spells` is any number of sequences in a row.
The reader is held to them in two steps: `sequence?_eq_some_iff` for the sequence at the front, and
from it, by induction on the bytes, what a whole reading gives (`spells_of_decodeFrom`) and where a
failed one stops (`exists_of_decodeFrom_error`).  The standard UTF-8 of a text without zeros is a
special case, one sequence for each character.
-/

namespace GuestBoundary.Text.Modified

/-! ## The forms -/

/-- The bytes of one sequence and the code units they stand for. -/
inductive Sequence : List UInt8 → List Unit16 → Prop where
  /-- One byte of `01..7F`. -/
  | one {n : Nat} (h : 1 ≤ n) (h' : n ≤ 0x7f) : Sequence [UInt8.ofNat n] [UInt16.ofNat n]
  /-- A byte of `C0..DF` and a continuation byte. -/
  | two {a b : Nat} (ha : a < 32) (hb : b < 64) :
      Sequence [UInt8.ofNat (0xc0 + a), UInt8.ofNat (0x80 + b)] [UInt16.ofNat (a * 64 + b)]
  /-- A byte of `E0..EF` and two continuation bytes. -/
  | three {a b c : Nat} (ha : a < 16) (hb : b < 64) (hc : c < 64) :
      Sequence [UInt8.ofNat (0xe0 + a), UInt8.ofNat (0x80 + b), UInt8.ofNat (0x80 + c)]
        [UInt16.ofNat (a * 4096 + b * 64 + c)]
  /-- A byte of `F0..F4` and three continuation bytes, for a scalar value of one code unit. -/
  | four {a b c d point : Nat} (ha : a ≤ 4) (hb : b < 64) (hc : c < 64) (hd : d < 64)
      (hpoint : point = a * 262144 + b * 4096 + c * 64 + d) (hscalar : point.isValidChar)
      (hunit : point ≤ 0xffff) :
      Sequence [UInt8.ofNat (0xf0 + a), UInt8.ofNat (0x80 + b), UInt8.ofNat (0x80 + c),
        UInt8.ofNat (0x80 + d)] [UInt16.ofNat point]
  /-- A byte of `F0..F4` and three continuation bytes, for a scalar value of two code units. -/
  | pair {a b c d point : Nat} (ha : a ≤ 4) (hb : b < 64) (hc : c < 64) (hd : d < 64)
      (hpoint : point = a * 262144 + b * 4096 + c * 64 + d) (hscalar : point.isValidChar)
      (hpair : 0xffff < point) :
      Sequence [UInt8.ofNat (0xf0 + a), UInt8.ofNat (0x80 + b), UInt8.ofNat (0x80 + c),
        UInt8.ofNat (0x80 + d)]
        [UInt16.ofNat (0xD800 + (point - 0x10000) / 0x400),
          UInt16.ofNat (0xDC00 + (point - 0x10000) % 0x400)]

/-- The bytes are sequences in a row, and the code units are theirs. -/
inductive Spells : List UInt8 → List Unit16 → Prop where
  | nil : Spells [] []
  | cons {seq bytes : List UInt8} {us vs : List Unit16} (front : Sequence seq us)
      (rest : Spells bytes vs) : Spells (seq ++ bytes) (us ++ vs)

/-- A sequence fits at the front of the bytes. -/
def Fits (bytes : List UInt8) : Prop :=
  ∃ seq us rest, Sequence seq us ∧ bytes = seq ++ rest

/-! ## The sequence at the front -/

/-- A sequence of four bytes with payloads of three, six, six and six bits. -/
theorem sequence?_four {a b c d : Nat} (ha : a ≤ 4) (hb : b < 64) (hc : c < 64) (hd : d < 64)
    (hscalar : (a * 262144 + b * 4096 + c * 64 + d).isValidChar) (rest : List UInt8) :
    sequence? (UInt8.ofNat (0xf0 + a) :: UInt8.ofNat (0x80 + b) :: UInt8.ofNat (0x80 + c) ::
      UInt8.ofNat (0x80 + d) :: rest) =
      some (codePointUnits (a * 262144 + b * 4096 + c * 64 + d), rest) := by
  have hlead : (UInt8.ofNat (0xf0 + a)).toNat = 0xf0 + a := by
    rw [UInt8.toNat_ofNat']
    omega
  have hpayload : (0xf0 + a) % 8 = a := by omega
  simp only [sequence?, hlead, continuation?_cons hb]
  rw [if_neg (by omega), if_neg (by omega), if_neg (by omega), if_pos (by omega)]
  -- without explicit proofs the kernel would count up to the factor of the first payload
  simp -implicitDefEqProofs only [Option.bind_eq_bind, Option.bind_some, continuation?_cons hc,
    continuation?_cons hd]
  rw [hpayload, if_pos hscalar]

theorem sequence?_of_sequence {seq : List UInt8} {us : List Unit16} (h : Sequence seq us)
    (rest : List UInt8) : sequence? (seq ++ rest) = some (us, rest) := by
  cases h with
  | one h h' => exact sequence?_one h h' rest
  | two ha hb => exact sequence?_two ha hb rest
  | three ha hb hc => exact sequence?_three ha hb hc rest
  | four ha hb hc hd hpoint hscalar hunit =>
    subst hpoint
    refine (sequence?_four ha hb hc hd hscalar rest).trans ?_
    rw [codePointUnits, if_pos (by omega)]
  | pair ha hb hc hd hpoint hscalar hpair =>
    subst hpoint
    refine (sequence?_four ha hb hc hd hscalar rest).trans ?_
    rw [codePointUnits, if_neg (by omega)]

theorem exists_of_continuation? {bytes rest : List UInt8} {a : Nat}
    (h : continuation? bytes = some (a, rest)) :
    a < 64 ∧ bytes = UInt8.ofNat (0x80 + a) :: rest := by
  cases bytes with
  | nil => simp [continuation?] at h
  | cons b bytes =>
    rw [continuation?] at h
    split at h
    case isTrue hb =>
      obtain ⟨rfl, rfl⟩ := Prod.mk.inj (Option.some.inj h)
      refine ⟨by omega, ?_⟩
      rw [show 0x80 + b.toNat % 64 = b.toNat by omega, UInt8.ofNat_toNat]
    case isFalse => cases h

theorem exists_of_sequence? {bytes rest : List UInt8} {us : List Unit16}
    (h : sequence? bytes = some (us, rest)) : ∃ seq, Sequence seq us ∧ bytes = seq ++ rest := by
  cases bytes with
  | nil => cases h
  | cons lead bytes =>
    have hlead : ∀ {base payload}, lead.toNat = base + payload →
        lead = UInt8.ofNat (base + payload) := fun h => by rw [← h, UInt8.ofNat_toNat]
    simp only [sequence?] at h
    split at h
    case isTrue h1 =>
      obtain ⟨rfl, rfl⟩ := Prod.mk.inj (Option.some.inj h)
      exact ⟨_, .one h1.1 h1.2, by rw [UInt8.ofNat_toNat]; rfl⟩
    split at h
    case isTrue h2 =>
      obtain ⟨⟨a, r⟩, ha, h⟩ := Option.bind_eq_some_iff.1 h
      obtain ⟨rfl, rfl⟩ := Prod.mk.inj (Option.some.inj h)
      obtain ⟨ha', rfl⟩ := exists_of_continuation? ha
      have hn : lead.toNat = 0xc0 + lead.toNat % 32 := by omega
      refine ⟨_, .two (by omega) ha', ?_⟩
      rw [← hlead hn]
      rfl
    split at h
    case isTrue h3 =>
      obtain ⟨⟨a, r⟩, ha, h⟩ := Option.bind_eq_some_iff.1 h
      obtain ⟨⟨b, r'⟩, hb, h⟩ := Option.bind_eq_some_iff.1 h
      obtain ⟨rfl, rfl⟩ := Prod.mk.inj (Option.some.inj h)
      obtain ⟨ha', rfl⟩ := exists_of_continuation? ha
      obtain ⟨hb', rfl⟩ := exists_of_continuation? hb
      have hn : lead.toNat = 0xe0 + lead.toNat % 16 := by omega
      refine ⟨_, .three (by omega) ha' hb', ?_⟩
      rw [← hlead hn]
      rfl
    split at h
    case isTrue h4 =>
      obtain ⟨⟨a, r⟩, ha, h⟩ := Option.bind_eq_some_iff.1 h
      obtain ⟨⟨b, r'⟩, hb, h⟩ := Option.bind_eq_some_iff.1 h
      obtain ⟨⟨c, r''⟩, hc, h⟩ := Option.bind_eq_some_iff.1 h
      dsimp only at h
      split at h
      case isTrue hscalar =>
        obtain ⟨rfl, rfl⟩ := Prod.mk.inj (Option.some.inj h)
        obtain ⟨ha', rfl⟩ := exists_of_continuation? ha
        obtain ⟨hb', rfl⟩ := exists_of_continuation? hb
        obtain ⟨hc', rfl⟩ := exists_of_continuation? hc
        have hn : lead.toNat = 0xf0 + lead.toNat % 8 := by omega
        rw [codePointUnits]
        split
        case isTrue hunit =>
          refine ⟨_, .four (by omega) ha' hb' hc' rfl hscalar (by omega), ?_⟩
          rw [← hlead hn]
          rfl
        case isFalse hunit =>
          refine ⟨_, .pair (by omega) ha' hb' hc' rfl hscalar (by omega), ?_⟩
          rw [← hlead hn]
          rfl
      case isFalse => cases h
    case isFalse => cases h

/-- The sequence read at the front is the one that the grammar has there. -/
theorem sequence?_eq_some_iff {bytes rest : List UInt8} {us : List Unit16} :
    sequence? bytes = some (us, rest) ↔ ∃ seq, Sequence seq us ∧ bytes = seq ++ rest := by
  refine ⟨exists_of_sequence?, ?_⟩
  rintro ⟨seq, h, rfl⟩
  exact sequence?_of_sequence h rest

theorem sequence?_eq_none_iff {bytes : List UInt8} : sequence? bytes = none ↔ ¬ Fits bytes := by
  constructor
  · rintro h ⟨seq, us, rest, hseq, rfl⟩
    rw [sequence?_eq_some_iff.2 ⟨seq, hseq, rfl⟩] at h
    cases h
  · intro h
    cases hread : sequence? bytes with
    | none => rfl
    | some read =>
      obtain ⟨seq, hseq, rfl⟩ := sequence?_eq_some_iff.1 hread
      exact absurd ⟨seq, read.1, read.2, hseq, rfl⟩ h

theorem Sequence.length_pos {seq : List UInt8} {us : List Unit16} (h : Sequence seq us) :
    0 < seq.length := by
  cases h <;> exact Nat.succ_pos _

/-! ## Reading all of the bytes -/

theorem decodeFrom_nil (offset : Nat) : decodeFrom offset [] = .ok [] := by
  rw [decodeFrom]
  rfl

/-- Reading goes on behind a sequence, at the offset where it ends. -/
theorem decodeFrom_append {seq : List UInt8} {us : List Unit16} (h : Sequence seq us)
    (offset : Nat) (rest : List UInt8) :
    decodeFrom offset (seq ++ rest) = (decodeFrom (offset + seq.length) rest).map (us ++ ·) := by
  rw [decodeFrom]
  split
  case h_1 us' rest' h' =>
    obtain ⟨rfl, rfl⟩ :=
      Prod.mk.inj (Option.some.inj (h'.symm.trans (sequence?_of_sequence h rest)))
    have hlength : (seq ++ rest').length - rest'.length = seq.length := by
      rw [List.length_append]
      omega
    rw [hlength]
    cases decodeFrom (offset + seq.length) rest' <;> rfl
  case h_2 h' => exact absurd ⟨seq, us, rest, h, rfl⟩ (sequence?_eq_none_iff.1 h')

/-- Reading stops where no sequence fits. -/
theorem decodeFrom_of_not_fits {bytes : List UInt8} (h : ¬ Fits bytes) (hne : bytes ≠ [])
    (offset : Nat) : decodeFrom offset bytes = .error offset := by
  rw [decodeFrom]
  split
  case h_1 us rest h' =>
    rw [sequence?_eq_none_iff.2 h] at h'
    cases h'
  case h_2 => rw [if_neg (by simpa using hne)]

/-- Reading goes on behind sequences in a row. -/
theorem decodeFrom_spells_append {bytes : List UInt8} {us : List Unit16} (h : Spells bytes us)
    (offset : Nat) (rest : List UInt8) :
    decodeFrom offset (bytes ++ rest) =
      (decodeFrom (offset + bytes.length) rest).map (us ++ ·) := by
  induction h generalizing offset with
  | nil =>
    simp only [List.nil_append, List.length_nil, Nat.add_zero]
    cases decodeFrom offset rest <;> rfl
  | cons front _ ih =>
    rw [List.append_assoc, decodeFrom_append front, ih, List.length_append, Nat.add_assoc]
    cases decodeFrom _ rest with
    | error stop => rfl
    | ok more => simp only [Except.map, List.append_assoc]

theorem decodeFrom_of_spells {bytes : List UInt8} {us : List Unit16} (h : Spells bytes us)
    (offset : Nat) : decodeFrom offset bytes = .ok us := by
  have := decodeFrom_spells_append h offset []
  rw [List.append_nil, decodeFrom_nil] at this
  simpa only [Except.map, List.append_nil] using this

/-- Any bytes are sequences in a row and then bytes at which no sequence fits. -/
theorem exists_spells_append (bytes : List UInt8) :
    ∃ front us stop, bytes = front ++ stop ∧ Spells front us ∧ ¬ Fits stop := by
  by_cases h : Fits bytes
  case neg => exact ⟨[], [], bytes, rfl, .nil, h⟩
  case pos =>
    obtain ⟨seq, us, rest, hseq, rfl⟩ := h
    -- A sequence has at least one byte, so what is left is shorter.
    have := hseq.length_pos
    obtain ⟨front, vs, stop, hrest, hfront, hstop⟩ := exists_spells_append rest
    refine ⟨seq ++ front, us ++ vs, stop, ?_, .cons hseq hfront, hstop⟩
    rw [hrest, List.append_assoc]
termination_by bytes.length
decreasing_by
  subst_vars
  rw [List.length_append]
  omega

/-- How any reading ends: all bytes are sequences in a row, or the offset reported is the end of
such a row at which no further sequence fits. -/
theorem decode_cases (bytes : List UInt8) :
    (∃ us, Spells bytes us ∧ decode bytes = .ok us) ∨
    ∃ front us stop, bytes = front ++ stop ∧ stop ≠ [] ∧ Spells front us ∧ ¬ Fits stop ∧
      decode bytes = .error front.length := by
  obtain ⟨front, us, stop, rfl, hfront, hstop⟩ := exists_spells_append bytes
  by_cases hnil : stop = []
  case pos =>
    subst hnil
    rw [List.append_nil]
    exact .inl ⟨us, hfront, decodeFrom_of_spells hfront 0⟩
  case neg =>
    refine .inr ⟨front, us, stop, rfl, hnil, hfront, hstop, ?_⟩
    rw [decode, decodeFrom_spells_append hfront, decodeFrom_of_not_fits hstop hnil, Nat.zero_add]
    rfl

theorem decode_eq_ok_iff {bytes : List UInt8} {us : List Unit16} :
    decode bytes = .ok us ↔ Spells bytes us := by
  refine ⟨fun h => ?_, fun h => decodeFrom_of_spells h 0⟩
  obtain ⟨vs, hvs, hok⟩ | ⟨front, vs, stop, -, -, -, -, herror⟩ := decode_cases bytes
  · obtain rfl := Except.ok.inj (hok.symm.trans h)
    exact hvs
  · rw [h] at herror
    cases herror

theorem decode_eq_error_iff {bytes : List UInt8} {k : Nat} :
    decode bytes = .error k ↔
      k < bytes.length ∧ (∃ us, decode (bytes.take k) = .ok us) ∧ ¬ Fits (bytes.drop k) := by
  constructor
  · intro h
    obtain ⟨us, -, hok⟩ | ⟨front, us, stop, rfl, hnil, hfront, hstop, herror⟩ := decode_cases bytes
    · rw [h] at hok
      cases hok
    · obtain rfl := Except.error.inj (h.symm.trans herror)
      have := List.length_pos_iff.2 hnil
      rw [List.take_left, List.drop_left, List.length_append]
      exact ⟨by omega, ⟨us, decode_eq_ok_iff.2 hfront⟩, hstop⟩
  · rintro ⟨hlt, ⟨us, hus⟩, hstop⟩
    have hnil : bytes.drop k ≠ [] := by
      rw [Ne, List.drop_eq_nil_iff]
      omega
    have := decodeFrom_spells_append (decode_eq_ok_iff.1 hus) 0 (bytes.drop k)
    rw [List.take_append_drop, decodeFrom_of_not_fits hstop hnil, List.length_take, Nat.zero_add,
      Nat.min_eq_left (Nat.le_of_lt hlt)] at this
    exact this

/-- A sequence fits wherever a row of sequences ends in front of the offset reported. -/
theorem fits_of_decode_eq_error {bytes : List UInt8} {k j : Nat} {us : List Unit16}
    (h : decode bytes = .error k) (hj : j < k) (hfront : Spells (bytes.take j) us) :
    Fits (bytes.drop j) := by
  have hlt := (decode_eq_error_iff.1 h).1
  refine Classical.byContradiction fun hstop => ?_
  -- Otherwise `j` would be an offset to report as well.
  have := decode_eq_error_iff.2 ⟨by omega, ⟨us, decode_eq_ok_iff.2 hfront⟩, hstop⟩
  rw [h] at this
  cases this
  omega

/-! ## Lenient reading -/

theorem decodeLossy_append {bytes : List UInt8} {us : List Unit16} (h : Spells bytes us)
    (rest : List UInt8) : decodeLossy (bytes ++ rest) = us ++ decodeLossy rest := by
  induction h with
  | nil => rfl
  | cons front _ ih =>
    rw [List.append_assoc, decodeLossy_of_sequence? (sequence?_of_sequence front _), ih,
      List.append_assoc]

theorem decodeLossy_of_not_fits {bytes : List UInt8} (h : ¬ Fits bytes) (hne : bytes ≠ []) :
    decodeLossy bytes = 0xFFFD :: decodeLossy bytes.tail := by
  rw [decodeLossy]
  split
  case h_1 us rest h' =>
    rw [sequence?_eq_none_iff.2 h] at h'
    cases h'
  case h_2 =>
    cases bytes with
    | nil => exact absurd rfl hne
    | cons b bytes => rfl

/-- Lenient reading in terms of strict reading: what is in front of the offset reported reads
strictly, a replacement unit stands for the byte there, and reading starts anew behind it. -/
theorem decodeLossy_of_decode_eq_error {bytes : List UInt8} {k : Nat}
    (h : decode bytes = .error k) :
    ∃ us, decode (bytes.take k) = .ok us ∧
      decodeLossy bytes = us ++ 0xFFFD :: decodeLossy (bytes.drop (k + 1)) := by
  obtain ⟨hlt, ⟨us, hus⟩, hstop⟩ := decode_eq_error_iff.1 h
  have hnil : bytes.drop k ≠ [] := by
    rw [Ne, List.drop_eq_nil_iff]
    omega
  have := decodeLossy_append (decode_eq_ok_iff.1 hus) (bytes.drop k)
  rw [List.take_append_drop, decodeLossy_of_not_fits hstop hnil, List.tail_drop] at this
  exact ⟨us, hus, this⟩

/-! ## Standard UTF-8 -/

/-- The standard bytes of a character other than zero are one sequence. -/
theorem sequence_utf8EncodeChar {c : Char} (h : c ≠ '\x00') :
    Sequence (String.utf8EncodeChar c) (codePointUnits c.toNat) := by
  have hscalar : c.toNat.isValidChar := c.valid
  have hpos : 1 ≤ c.toNat := Nat.one_le_iff_ne_zero.2 fun h0 => h (Char.ext (UInt32.toNat_inj.1 h0))
  have hval : c.val.toNat = c.toNat := rfl
  unfold String.utf8EncodeChar codePointUnits
  dsimp only
  rw [hval]
  have hmax : c.toNat < 0x110000 := by
    unfold Nat.isValidChar at hscalar
    omega
  generalize c.toNat = n at hscalar hpos hmax
  split
  case isTrue h1 =>
    rw [if_pos (by omega)]
    exact .one hpos h1
  split
  case isTrue h2 =>
    rw [if_pos (by omega), Nat.add_comm _ 0xc0, Nat.add_comm _ 0x80]
    have := Sequence.two (a := n / 64 % 32) (b := n % 64) (by omega) (by omega)
    rwa [show n / 64 % 32 * 64 + n % 64 = n by omega] at this
  split
  case isTrue h3 =>
    rw [if_pos (by omega), Nat.add_comm _ 0xe0, Nat.add_comm _ 0x80, Nat.add_comm _ 0x80]
    have := Sequence.three (a := n / 4096 % 16) (b := n / 64 % 64) (c := n % 64) (by omega)
      (by omega) (by omega)
    rwa [show n / 4096 % 16 * 4096 + n / 64 % 64 * 64 + n % 64 = n by omega] at this
  case isFalse h3 =>
    rw [if_neg (by omega), Nat.add_comm _ 0xf0, Nat.add_comm _ 0x80, Nat.add_comm _ 0x80,
      Nat.add_comm _ 0x80]
    exact .pair (by omega) (by omega) (by omega) (by omega) (by omega) hscalar (by omega)

theorem spells_flatMap_utf8EncodeChar {cs : List Char} (h : '\x00' ∉ cs) :
    Spells (cs.flatMap String.utf8EncodeChar) (cs.flatMap fun c => codePointUnits c.toNat) := by
  induction cs with
  | nil => exact .nil
  | cons c cs ih =>
    rw [List.mem_cons, not_or] at h
    exact .cons (sequence_utf8EncodeChar (Ne.symm h.1)) (ih h.2)

theorem toList_loop_eq (bytes : ByteArray) (i : Nat) (read : List UInt8) :
    ByteArray.toList.loop bytes i read = read.reverse ++ bytes.data.toList.drop i := by
  fun_induction ByteArray.toList.loop bytes i read with
  | case1 i read hlt ih =>
    have hi : i < bytes.data.toList.length := hlt
    have hget : bytes.get! i = bytes.data.toList[i] := getElem!_pos bytes.data i hlt
    rw [ih, List.drop_eq_getElem_cons hi, hget, List.reverse_cons, List.append_assoc,
      List.singleton_append]
  | case2 i read hge => rw [List.drop_eq_nil_of_le (Nat.le_of_not_lt hge), List.append_nil]

theorem toList_toUTF8 (s : String) :
    s.toUTF8.toList = s.toList.flatMap String.utf8EncodeChar := by
  rw [ByteArray.toList, toList_loop_eq, List.reverse_nil, List.nil_append, List.drop_zero,
    String.toUTF8_eq_toByteArray, ← String.utf8Encode_toList, List.utf8Encode,
    List.toList_data_toByteArray]

/-! ## The reader and its grammar -/

/-- Reading succeeds exactly on sequences in a row and then gives their code units; it fails exactly
at an offset in front of which reading succeeds and at which no sequence fits, and a sequence fits
wherever a row of them ends before that; and the standard UTF-8 of a text without zeros reads as
the text's code units. -/
theorem decode_eq_grammar (bytes : List UInt8) :
    (∀ us, decode bytes = .ok us ↔ Spells bytes us) ∧
    (∀ k, decode bytes = .error k ↔
      k < bytes.length ∧ (∃ us, decode (bytes.take k) = .ok us) ∧ ¬ Fits (bytes.drop k)) ∧
    (∀ k, decode bytes = .error k → ∀ j < k, (∃ us, Spells (bytes.take j) us) →
      Fits (bytes.drop j)) ∧
    ∀ s : String, '\x00' ∉ s.toList → decode s.toUTF8.toList = .ok (units s) := by
  refine ⟨fun us => decode_eq_ok_iff, fun k => decode_eq_error_iff, ?_, ?_⟩
  · rintro k h j hj ⟨us, hus⟩
    exact fits_of_decode_eq_error h hj hus
  · intro s h
    rw [toList_toUTF8]
    exact decode_eq_ok_iff.2 (spells_flatMap_utf8EncodeChar h)

/-- A sequence of three bytes that ends early is reported where it starts, and a character beyond
the first plane reads as its surrogates. -/
theorem decode_eq_grammar_truncated :
    decode [0x41, 0xE2, 0x82] = .error 1 ∧ Fits [0x41, 0xE2, 0x82] ∧
    decode "é𝄞".toUTF8.toList = .ok [0xE9, 0xD834, 0xDD1E] := by
  have hA : Spells [0x41] [0x41] :=
    .cons (.one (n := 0x41) (by decide) (by decide)) .nil
  have herror : decode [0x41, 0xE2, 0x82] = .error 1 := by
    refine ((decode_eq_grammar _).2.1 1).2 ⟨by decide, ⟨[0x41], ?_⟩, ?_⟩
    · exact ((decode_eq_grammar _).1 _).2 hA
    · exact sequence?_eq_none_iff.1 (by decide)
  have hunits : units "é𝄞" = [0xE9, 0xD834, 0xDD1E] := by decide
  refine ⟨herror, ?_, ?_⟩
  · exact (decode_eq_grammar _).2.2.1 1 herror 0 (by decide) ⟨[], .nil⟩
  · rw [← hunits]
    exact (decode_eq_grammar []).2.2.2 "é𝄞" (by decide)

end GuestBoundary.Text.Modified
