import GuestBoundary.Descriptor.Parser

/-!
# Cuts at byte offsets

Where a text is addressed by bytes, a cut is refused inside a character, which is `none` here.
Behind a prefix of the characters a cut is never refused (`from?_append`, `between?_append`), and
the byte there is the first one of the next character, which is told apart from every character of
one byte (`leadByte_eq_iff`).
-/

namespace GuestBoundary.Descriptor

/-- The bytes of characters in standard encoding. -/
def bytes (cs : List Char) : List UInt8 := cs.flatMap String.utf8EncodeChar

/-- The byte of a character that takes one. -/
def byte (c : Char) : UInt8 := UInt8.ofNat c.toNat

/-- The first byte of a character. -/
def leadByte (c : Char) : UInt8 := (String.utf8EncodeChar c).headD 0

/-- The characters from an offset on, refused inside a character and beyond the end. -/
def from? : List Char → Nat → Option (List Char)
  | cs, 0 => some cs
  | [], _ + 1 => none
  | c :: cs, n + 1 => if c.utf8Size ≤ n + 1 then from? cs (n + 1 - c.utf8Size) else none

/-- The characters between two offsets, refused where one of them is inside a character. -/
def between? (cs : List Char) (start stop : Nat) : Option (List Char) :=
  match from? cs start, from? cs stop with
  | some front, some rest =>
    if start ≤ stop then some (front.take (front.length - rest.length)) else none
  | _, _ => none

/-- The offset of the first such character. -/
def find? (mark : Char) (cs : List Char) : Option Nat :=
  if mark ∈ cs then some (byteLength (cs.takeWhile (· ≠ mark))) else none

theorem lt_of_from? {cs front : List Char} {c : Char} {offset : Nat}
    (h : from? cs offset = some (c :: front)) : offset < byteLength cs := by
  fun_induction from? cs offset
  case case1 cs =>
    obtain rfl := Option.some.inj h
    have := c.utf8Size_pos
    rw [byteLength]
    omega
  case case2 => cases h
  case case3 d cs n hle ih =>
    have := ih h
    rw [byteLength]
    omega
  case case4 => cases h

/-! ## Bytes behind a prefix -/

theorem byteLength_append (cs ds : List Char) :
    byteLength (cs ++ ds) = byteLength cs + byteLength ds := by
  induction cs with
  | nil => rw [List.nil_append, byteLength, Nat.zero_add]
  | cons c cs ih => rw [List.cons_append, byteLength, byteLength, ih, Nat.add_assoc]

theorem byteLength_pos {cs : List Char} (h : cs ≠ []) : 0 < byteLength cs := by
  obtain ⟨c, cs, rfl⟩ := List.exists_cons_of_ne_nil h
  have := c.utf8Size_pos
  rw [byteLength]
  omega

theorem length_bytes (cs : List Char) : (bytes cs).length = byteLength cs := by
  induction cs with
  | nil => rfl
  | cons c cs ih =>
    rw [bytes] at ih
    rw [bytes, List.flatMap_cons, List.length_append, ih, String.length_utf8EncodeChar, byteLength]

theorem bytes_append (cs ds : List Char) : bytes (cs ++ ds) = bytes cs ++ bytes ds :=
  List.flatMap_append

/-- A cut behind a prefix is never refused. -/
theorem from?_append (front rest : List Char) :
    from? (front ++ rest) (byteLength front) = some rest := by
  induction front with
  | nil =>
    rw [List.nil_append, byteLength]
    cases rest <;> rfl
  | cons c front ih =>
    have := c.utf8Size_pos
    obtain ⟨n, hn⟩ : ∃ n, byteLength (c :: front) = n + 1 :=
      Nat.exists_eq_add_one.2 (by rw [byteLength]; omega)
    rw [byteLength] at hn
    rw [byteLength, hn, List.cons_append, from?, if_pos (by omega), ← hn, Nat.add_sub_cancel_left,
      ih]

theorem between?_append (front cut rest : List Char) :
    between? (front ++ cut ++ rest) (byteLength front) (byteLength front + byteLength cut) =
      some cut := by
  have hstart := from?_append front (cut ++ rest)
  have hstop := from?_append (front ++ cut) rest
  rw [← List.append_assoc] at hstart
  rw [byteLength_append] at hstop
  rw [between?, hstart, hstop]
  dsimp only
  rw [if_pos (Nat.le_add_right _ _), List.length_append, Nat.add_sub_cancel, List.take_left]

/-! ## Bytes of one character -/

theorem utf8EncodeChar_eq_cons (c : Char) :
    ∃ more, String.utf8EncodeChar c = leadByte c :: more := by
  rw [leadByte]
  cases h : String.utf8EncodeChar c with
  | nil => exact absurd h String.utf8EncodeChar_ne_nil
  | cons b more => exact ⟨more, rfl⟩

theorem utf8EncodeChar_of_lt {c : Char} (h : c.toNat < 0x80) :
    String.utf8EncodeChar c = [byte c] := by
  rw [String.utf8EncodeChar, if_pos (show c.val.toNat ≤ 0x7f from Nat.le_of_lt_succ h)]
  rfl

theorem utf8Size_of_lt {c : Char} (h : c.toNat < 0x80) : c.utf8Size = 1 := by
  rw [← String.length_utf8EncodeChar, utf8EncodeChar_of_lt h, List.length_singleton]

theorem toNat_byte {c : Char} (h : c.toNat < 0x80) : (byte c).toNat = c.toNat := by
  rw [byte, UInt8.toNat_ofNat']
  omega

theorem leadByte_of_lt {c : Char} (h : c.toNat < 0x80) : leadByte c = byte c := by
  rw [leadByte, utf8EncodeChar_of_lt h, List.headD_cons]

/-- A character of several bytes starts with a byte that is no character of one byte. -/
theorem le_toNat_leadByte {c : Char} (h : 0x80 ≤ c.toNat) : 0x80 ≤ (leadByte c).toNat := by
  have hlt : c.toNat < 0x110000 := by
    obtain h | h := c.valid
    · exact Nat.lt_trans h (by decide)
    · exact h.2
  have hval : c.val.toNat = c.toNat := rfl
  unfold leadByte String.utf8EncodeChar
  dsimp only
  rw [hval]
  rw [if_neg (by omega)]
  split
  · rw [List.headD_cons, UInt8.toNat_ofNat']
    omega
  split
  · rw [List.headD_cons, UInt8.toNat_ofNat']
    omega
  · rw [List.headD_cons, UInt8.toNat_ofNat']
    omega

theorem leadByte_eq_iff {c a : Char} (ha : a.toNat < 0x80) : leadByte c = byte a ↔ c = a := by
  rw [← UInt8.toNat_inj, toNat_byte ha]
  by_cases hc : c.toNat < 0x80
  case pos =>
    rw [leadByte_of_lt hc, toNat_byte hc]
    exact ⟨fun h => Char.ext (UInt32.toNat_inj.1 h), congrArg _⟩
  case neg =>
    have := le_toNat_leadByte (Nat.le_of_not_lt hc)
    constructor
    · omega
    · rintro rfl
      exact absurd ha hc

theorem leadByte_mem_iff {c : Char} {as : List Char} (has : ∀ a ∈ as, a.toNat < 0x80) :
    leadByte c ∈ as.map byte ↔ c ∈ as := by
  rw [List.mem_map]
  constructor
  · rintro ⟨a, ha, heq⟩
    rwa [(leadByte_eq_iff (has a ha)).1 heq.symm]
  · intro h
    exact ⟨c, h, ((leadByte_eq_iff (has c h)).2 rfl).symm⟩

/-- The byte behind a prefix is the first one of the character there. -/
theorem getElem?_bytes (front rest : List Char) (c : Char) :
    (bytes (front ++ c :: rest))[byteLength front]? = some (leadByte c) := by
  obtain ⟨more, hmore⟩ := utf8EncodeChar_eq_cons c
  rw [bytes_append, List.getElem?_append_right (Nat.le_of_eq (length_bytes front)), length_bytes,
    Nat.sub_self, bytes, List.flatMap_cons, hmore, List.cons_append, List.getElem?_cons_zero]

theorem getElem?_bytes_end (front : List Char) : (bytes front)[byteLength front]? = none :=
  List.getElem?_eq_none (Nat.le_of_eq (length_bytes front))

end GuestBoundary.Descriptor
