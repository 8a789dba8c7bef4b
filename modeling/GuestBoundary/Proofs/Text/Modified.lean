import GuestBoundary.Text.Modified

/-!
# Modified UTF-8 there and back

The bytes of a code unit are a sequence that reads back as that unit (`sequence?_encodeUnit`), each
of its bytes is a lead or a continuation byte and never zero, and so whole texts come back as they
were, strictly and leniently, whatever their surrogates are.
-/

namespace GuestBoundary.Text.Modified

/-! ## The bytes of one unit -/

theorem continuation?_cons {n : Nat} (h : n < 64) (rest : List UInt8) :
    continuation? (UInt8.ofNat (0x80 + n) :: rest) = some (n, rest) := by
  have hbyte : (UInt8.ofNat (0x80 + n)).toNat = 0x80 + n := by
    rw [UInt8.toNat_ofNat']
    omega
  rw [continuation?, hbyte, if_pos (by omega)]
  congr 2
  omega

/-- A sequence of one byte. -/
theorem sequence?_one {n : Nat} (h : 1 ≤ n) (h' : n ≤ 0x7f) (rest : List UInt8) :
    sequence? (UInt8.ofNat n :: rest) = some ([UInt16.ofNat n], rest) := by
  have hlead : (UInt8.ofNat n).toNat = n := by
    rw [UInt8.toNat_ofNat']
    omega
  simp only [sequence?, hlead]
  rw [if_pos ⟨h, h'⟩]

/-- A sequence of two bytes with payloads of five and six bits. -/
theorem sequence?_two {a b : Nat} (ha : a < 32) (hb : b < 64) (rest : List UInt8) :
    sequence? (UInt8.ofNat (0xc0 + a) :: UInt8.ofNat (0x80 + b) :: rest) =
      some ([UInt16.ofNat (a * 64 + b)], rest) := by
  have hlead : (UInt8.ofNat (0xc0 + a)).toNat = 0xc0 + a := by
    rw [UInt8.toNat_ofNat']
    omega
  have hpayload : (0xc0 + a) % 32 = a := by omega
  simp only [sequence?, hlead, continuation?_cons hb, hpayload]
  rw [if_neg (by omega), if_pos (by omega)]
  rfl

/-- A sequence of three bytes with payloads of four, six and six bits. -/
theorem sequence?_three {a b c : Nat} (ha : a < 16) (hb : b < 64) (hc : c < 64)
    (rest : List UInt8) :
    sequence? (UInt8.ofNat (0xe0 + a) :: UInt8.ofNat (0x80 + b) :: UInt8.ofNat (0x80 + c) :: rest) =
      some ([UInt16.ofNat (a * 4096 + b * 64 + c)], rest) := by
  have hlead : (UInt8.ofNat (0xe0 + a)).toNat = 0xe0 + a := by
    rw [UInt8.toNat_ofNat']
    omega
  have hpayload : (0xe0 + a) % 16 = a := by omega
  simp only [sequence?, hlead, continuation?_cons hb, hpayload]
  rw [if_neg (by omega), if_neg (by omega), if_pos (by omega)]
  simp only [Option.bind_eq_bind, Option.bind_some, continuation?_cons hc]

/-- What is read first behind the bytes of a unit is that unit. -/
theorem sequence?_encodeUnit (u : Unit16) (rest : List UInt8) :
    sequence? (encodeUnit u ++ rest) = some ([u], rest) := by
  have hu : u.toNat < 65536 := u.toNat_lt
  have hback : UInt16.ofNat u.toNat = u := UInt16.ofNat_toNat
  unfold encodeUnit
  dsimp only
  split
  case isTrue h =>
    rw [List.singleton_append, sequence?_one h.1 h.2, hback]
  case isFalse h =>
    split
    case isTrue h' =>
      rw [List.cons_append, List.singleton_append, sequence?_two (by omega) (by omega),
        show u.toNat / 64 * 64 + u.toNat % 64 = u.toNat by omega, hback]
    case isFalse h' =>
      rw [List.cons_append, List.cons_append, List.singleton_append,
        sequence?_three (by omega) (by omega) (by omega),
        show u.toNat / 4096 * 4096 + u.toNat / 64 % 64 * 64 + u.toNat % 64 = u.toNat by omega,
        hback]

theorem zero_notMem_encodeUnit (u : Unit16) : 0 ∉ encodeUnit u := by
  have hne : ∀ n : Nat, 1 ≤ n → n < 256 → (0 : UInt8) ≠ UInt8.ofNat n := by
    intro n hpos hlt h
    have := congrArg UInt8.toNat h
    rw [UInt8.toNat_ofNat_of_lt' hlt] at this
    have hzero : (0 : UInt8).toNat = 0 := rfl
    omega
  have hu : u.toNat < 65536 := u.toNat_lt
  unfold encodeUnit
  dsimp only
  split
  case isTrue h => simpa using hne _ h.1 (by omega)
  case isFalse h =>
    split
    case isTrue h' =>
      simp only [List.mem_cons, List.not_mem_nil, or_false, not_or]
      exact ⟨hne _ (by omega) (by omega), hne _ (by omega) (by omega)⟩
    case isFalse h' =>
      simp only [List.mem_cons, List.not_mem_nil, or_false, not_or]
      exact ⟨hne _ (by omega) (by omega), hne _ (by omega) (by omega), hne _ (by omega) (by omega)⟩

/-! ## Whole texts -/

theorem encode_nil : encode [] = [] := rfl

theorem encode_cons (u : Unit16) (us : List Unit16) :
    encode (u :: us) = encodeUnit u ++ encode us := List.flatMap_cons

theorem encode_append (us vs : List Unit16) : encode (us ++ vs) = encode us ++ encode vs :=
  List.flatMap_append

theorem zero_notMem_encode (us : List Unit16) : 0 ∉ encode us := by
  intro h
  obtain ⟨u, -, hu⟩ := List.mem_flatMap.1 h
  exact zero_notMem_encodeUnit u hu

/-- Strict reading takes one sequence after the other. -/
theorem decodeFrom_of_sequence? {bytes rest : List UInt8} {us vs : List Unit16} {offset : Nat}
    (h : sequence? bytes = some (us, rest))
    (hrest : decodeFrom (offset + (bytes.length - rest.length)) rest = .ok vs) :
    decodeFrom offset bytes = .ok (us ++ vs) := by
  rw [decodeFrom]
  split
  case h_1 us' rest' h' =>
    obtain ⟨rfl, rfl⟩ := Prod.mk.inj (Option.some.inj (h'.symm.trans h))
    rw [hrest]
  case h_2 h' =>
    rw [h] at h'
    cases h'

/-- Lenient reading takes one sequence after the other. -/
theorem decodeLossy_of_sequence? {bytes rest : List UInt8} {us : List Unit16}
    (h : sequence? bytes = some (us, rest)) : decodeLossy bytes = us ++ decodeLossy rest := by
  rw [decodeLossy]
  split
  case h_1 us' rest' h' =>
    obtain ⟨rfl, rfl⟩ := Prod.mk.inj (Option.some.inj (h'.symm.trans h))
    rfl
  case h_2 h' =>
    rw [h] at h'
    cases h'

theorem decodeFrom_encode (offset : Nat) (us : List Unit16) :
    decodeFrom offset (encode us) = .ok us := by
  induction us generalizing offset with
  | nil =>
    rw [encode_nil, decodeFrom]
    rfl
  | cons u us ih =>
    rw [encode_cons]
    exact decodeFrom_of_sequence? (sequence?_encodeUnit u _) (ih _)

theorem decodeLossy_encode_append (us : List Unit16) (rest : List UInt8) :
    decodeLossy (encode us ++ rest) = us ++ decodeLossy rest := by
  induction us with
  | nil => rfl
  | cons u us ih =>
    rw [encode_cons, List.append_assoc, decodeLossy_of_sequence? (sequence?_encodeUnit u _), ih]
    rfl

theorem decodeLossy_nil : decodeLossy [] = [] := by
  rw [decodeLossy]
  rfl

/-- Code units come back from their bytes, read strictly or leniently; the bytes are as many as
announced and none is zero; and the bytes of two adjacent regions are the bytes of both together. -/
theorem encode_round_trip (us : List Unit16) :
    decode (encode us) = .ok us ∧ decodeLossy (encode us) = us ∧
    (encode us).length = encodedLength us ∧ 0 ∉ encode us ∧
    (∀ vs, encode (us ++ vs) = encode us ++ encode vs) ∧
    ∀ start n k, encode ((us.drop start).take n) ++ encode ((us.drop (start + n)).take k) =
      encode ((us.drop start).take (n + k)) := by
  refine ⟨decodeFrom_encode 0 us, ?_, length_encode us, zero_notMem_encode us, encode_append us,
    fun start n k => ?_⟩
  · have := decodeLossy_encode_append us []
    rwa [List.append_nil, decodeLossy_nil, List.append_nil] at this
  · rw [← encode_append, ← List.drop_drop, List.take_add]

/-- Zero takes two bytes, and a lone surrogate three. -/
example : encode [0x41, 0, 0xD800] = [0x41, 0xC0, 0x80, 0xED, 0xA0, 0x80] := by decide

end GuestBoundary.Text.Modified
