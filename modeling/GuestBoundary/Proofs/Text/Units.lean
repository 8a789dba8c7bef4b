import GuestBoundary.Text.Units

/-!
# Text and its code units

A character is one code unit that is no surrogate, or a surrogate pair, so the units of a text can
be read back one character at a time (`charsOfUnits_codePointUnits_append`): a text is what its code
units spell.
-/

namespace GuestBoundary.Text

theorem isHighSurrogate_iff {u : Unit16} :
    isHighSurrogate u = true ↔ 0xD800 ≤ u.toNat ∧ u.toNat ≤ 0xDBFF := by
  simp [isHighSurrogate, UInt16.le_iff_toNat_le]

theorem isLowSurrogate_iff {u : Unit16} :
    isLowSurrogate u = true ↔ 0xDC00 ≤ u.toNat ∧ u.toNat ≤ 0xDFFF := by
  simp [isLowSurrogate, UInt16.le_iff_toNat_le]

/-- A unit that is no surrogate is a character of its own. -/
theorem charsOfUnits_cons {u : Unit16} (hhigh : isHighSurrogate u = false)
    (hlow : isLowSurrogate u = false) (us : List Unit16) :
    charsOfUnits (u :: us) = Char.ofNat u.toNat :: charsOfUnits us := by
  cases us with
  | nil => simp [charsOfUnits, hhigh, hlow]
  | cons v us => simp [charsOfUnits, hhigh, hlow]

theorem charsOfUnits_pair {u v : Unit16} (hhigh : isHighSurrogate u = true)
    (hlow : isLowSurrogate v = true) (us : List Unit16) :
    charsOfUnits (u :: v :: us) = Char.ofNat (pairCodePoint u v) :: charsOfUnits us := by
  simp [charsOfUnits, hhigh, hlow]

/-- The two units of a supplementary code point, as numbers. -/
theorem surrogates_of_codePoint {n : Nat} (hlow : 0x10000 ≤ n) (hhigh : n < 0x110000) :
    (UInt16.ofNat (0xD800 + (n - 0x10000) / 0x400)).toNat = 0xD800 + (n - 0x10000) / 0x400 ∧
      (UInt16.ofNat (0xDC00 + (n - 0x10000) % 0x400)).toNat = 0xDC00 + (n - 0x10000) % 0x400 := by
  have hu : 0xD800 + (n - 0x10000) / 0x400 < 65536 := by omega
  have hv : 0xDC00 + (n - 0x10000) % 0x400 < 65536 := by omega
  exact ⟨UInt16.toNat_ofNat_of_lt' hu, UInt16.toNat_ofNat_of_lt' hv⟩

/-- The units of a character read back as that character, whatever comes after them. -/
theorem charsOfUnits_codePointUnits_append (c : Char) (us : List Unit16) :
    charsOfUnits (codePointUnits c.toNat ++ us) = c :: charsOfUnits us := by
  have hscalar : c.toNat < 0xD800 ∨ (0xDFFF < c.toNat ∧ c.toNat < 0x110000) := c.valid
  have hback : Char.ofNat c.toNat = c := Char.ofNat_toNat c
  generalize c.toNat = n at hscalar hback
  unfold codePointUnits
  split
  case isTrue h =>
    have hunit : (UInt16.ofNat n).toNat = n := UInt16.toNat_ofNat_of_lt' h
    have hhigh : isHighSurrogate (UInt16.ofNat n) = false := by
      rw [← Bool.not_eq_true, isHighSurrogate_iff, hunit]
      omega
    have hlow : isLowSurrogate (UInt16.ofNat n) = false := by
      rw [← Bool.not_eq_true, isLowSurrogate_iff, hunit]
      omega
    rw [List.singleton_append, charsOfUnits_cons hhigh hlow, hunit, hback]
  case isFalse h =>
    obtain ⟨hu, hv⟩ := surrogates_of_codePoint (n := n) (by omega) (by omega)
    dsimp only
    generalize UInt16.ofNat (0xD800 + (n - 0x10000) / 0x400) = u at hu
    generalize UInt16.ofNat (0xDC00 + (n - 0x10000) % 0x400) = v at hv
    have hhigh : isHighSurrogate u = true := by
      rw [isHighSurrogate_iff]
      omega
    have hlow : isLowSurrogate v = true := by
      rw [isLowSurrogate_iff]
      omega
    have hpoint : pairCodePoint u v = n := by
      unfold pairCodePoint
      omega
    rw [List.cons_append, List.singleton_append, charsOfUnits_pair hhigh hlow, hpoint, hback]

theorem charsOfUnits_flatMap (cs : List Char) :
    charsOfUnits (cs.flatMap fun c => codePointUnits c.toNat) = cs := by
  induction cs with
  | nil => rfl
  | cons c cs ih => rw [List.flatMap_cons, charsOfUnits_codePointUnits_append, ih]

end GuestBoundary.Text
