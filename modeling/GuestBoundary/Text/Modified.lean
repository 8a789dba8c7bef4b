import GuestBoundary.Text.Units

/-!
# Modified UTF-8

Text crosses the boundary as bytes in which no byte is zero: the unit 0 takes two bytes, every
other unit its usual one, two or three, so a supplementary character is a pair of three-byte
surrogates.  Reading also takes the standard four-byte form.  `encode` and `decode` work on code
units; `decodeLossy` puts a replacement unit for each byte that starts no sequence.
-/

namespace GuestBoundary.Text.Modified

/-- The bytes of one code unit. -/
def encodeUnit (u : Unit16) : List UInt8 :=
  let n := u.toNat
  if 1 ≤ n ∧ n ≤ 0x7f then [UInt8.ofNat n]
  else if n ≤ 0x7ff then [UInt8.ofNat (0xc0 + n / 64), UInt8.ofNat (0x80 + n % 64)]
  else
    [UInt8.ofNat (0xe0 + n / 4096), UInt8.ofNat (0x80 + n / 64 % 64), UInt8.ofNat (0x80 + n % 64)]

/-- How many bytes one code unit takes. -/
def unitLength (u : Unit16) : Nat :=
  if 1 ≤ u.toNat ∧ u.toNat ≤ 0x7f then 1 else if u.toNat ≤ 0x7ff then 2 else 3

/-- The bytes of a list of code units. -/
def encode (us : List Unit16) : List UInt8 := us.flatMap encodeUnit

/-- How many bytes the code units take. -/
def encodedLength : List Unit16 → Nat
  | [] => 0
  | u :: us => unitLength u + encodedLength us

theorem length_encodeUnit (u : Unit16) : (encodeUnit u).length = unitLength u := by
  unfold encodeUnit unitLength
  dsimp only
  split
  · rfl
  · split <;> rfl

theorem length_encode (us : List Unit16) : (encode us).length = encodedLength us := by
  induction us with
  | nil => rfl
  | cons u us ih =>
    simp only [encode] at ih
    simp [encode, encodedLength, length_encodeUnit, ih]

/-- The six payload bits of a continuation byte at the front. -/
def continuation? : List UInt8 → Option (Nat × List UInt8)
  | b :: rest => if 0x80 ≤ b.toNat ∧ b.toNat ≤ 0xbf then some (b.toNat % 64, rest) else none
  | [] => none

/-- The code units of the sequence at the front and the bytes after it, if one fits. -/
def sequence? : List UInt8 → Option (List Unit16 × List UInt8)
  | [] => none
  | lead :: rest =>
    let n := lead.toNat
    if 1 ≤ n ∧ n ≤ 0x7f then some ([UInt16.ofNat n], rest)
    else if 0xc0 ≤ n ∧ n ≤ 0xdf then do
      let (a, rest) ← continuation? rest
      some ([UInt16.ofNat (n % 32 * 64 + a)], rest)
    else if 0xe0 ≤ n ∧ n ≤ 0xef then do
      let (a, rest) ← continuation? rest
      let (b, rest) ← continuation? rest
      some ([UInt16.ofNat (n % 16 * 4096 + a * 64 + b)], rest)
    else if 0xf0 ≤ n ∧ n ≤ 0xf4 then do
      let (a, rest) ← continuation? rest
      let (b, rest) ← continuation? rest
      let (c, rest) ← continuation? rest
      let point := n % 8 * 262144 + a * 4096 + b * 64 + c
      if point.isValidChar then some (codePointUnits point, rest) else none
    else none

theorem length_of_continuation? {bs rest : List UInt8} {a : Nat}
    (h : continuation? bs = some (a, rest)) : rest.length < bs.length := by
  cases bs with
  | nil => simp [continuation?] at h
  | cons b bs =>
    simp only [continuation?] at h
    split at h <;> simp_all

theorem length_of_sequence? {bs rest : List UInt8} {us : List Unit16}
    (h : sequence? bs = some (us, rest)) : rest.length < bs.length := by
  cases bs with
  | nil => simp [sequence?] at h
  | cons lead bs =>
    simp only [sequence?] at h
    split at h
    · simp_all
    · split at h
      · obtain ⟨⟨a, r⟩, ha, h⟩ := Option.bind_eq_some_iff.1 h
        have := length_of_continuation? ha
        simp_all
        omega
      · split at h
        · obtain ⟨⟨a, r⟩, ha, h⟩ := Option.bind_eq_some_iff.1 h
          obtain ⟨⟨b, r'⟩, hb, h⟩ := Option.bind_eq_some_iff.1 h
          have := length_of_continuation? ha
          have := length_of_continuation? hb
          simp_all
          omega
        · split at h
          · obtain ⟨⟨a, r⟩, ha, h⟩ := Option.bind_eq_some_iff.1 h
            obtain ⟨⟨b, r'⟩, hb, h⟩ := Option.bind_eq_some_iff.1 h
            obtain ⟨⟨c, r''⟩, hc, h⟩ := Option.bind_eq_some_iff.1 h
            have := length_of_continuation? ha
            have := length_of_continuation? hb
            have := length_of_continuation? hc
            dsimp only at h
            split at h <;> simp_all
            omega
          · simp at h

/-- Reads bytes that start at offset `offset` of the whole; fails with the offset of the first
byte that starts no sequence. -/
def decodeFrom (offset : Nat) (bytes : List UInt8) : Except Nat (List Unit16) :=
  match h : sequence? bytes with
  | some (us, rest) =>
    have _shorter := length_of_sequence? h
    match decodeFrom (offset + (bytes.length - rest.length)) rest with
    | .ok more => .ok (us ++ more)
    | .error stop => .error stop
  | none => if bytes.isEmpty then .ok [] else .error offset
termination_by bytes.length
decreasing_by exact _shorter

/-- The code units that the bytes spell, or the offset of the first byte that starts no
sequence. -/
def decode (bytes : List UInt8) : Except Nat (List Unit16) := decodeFrom 0 bytes

/-- Reads bytes with a replacement unit for each byte that starts no sequence. -/
def decodeLossy (bytes : List UInt8) : List Unit16 :=
  match h : sequence? bytes with
  | some (us, rest) =>
    have _shorter := length_of_sequence? h
    us ++ decodeLossy rest
  | none =>
    match bytes with
    | [] => []
    | _ :: rest => 0xFFFD :: decodeLossy rest
termination_by bytes.length
decreasing_by
  · exact _shorter
  · simp

/-- What a reader is told about bytes that spell no text. -/
def malformedMessage (offset : Nat) : String :=
  "malformed modified UTF-8 at byte " ++ toString offset

/-- The text of the bytes, with replacement characters where they spell none. -/
def text (bytes : List UInt8) : String := ofUnits (decodeLossy bytes)

end GuestBoundary.Text.Modified
