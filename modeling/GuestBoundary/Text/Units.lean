/-!
# Code units

A guest string is a list of 16-bit code units, with or without proper surrogate pairs.  `units`
cuts text into code units, `ofUnits` reads them back and puts the replacement character where a
surrogate stands alone.
-/

namespace GuestBoundary.Text

/-- One 16-bit code unit. -/
abbrev Unit16 := UInt16

/-- What stands for a surrogate without its partner. -/
def replacement : Char := '\uFFFD'

/-- The one or two code units of a code point. -/
def codePointUnits (n : Nat) : List Unit16 :=
  if n < 0x10000 then [UInt16.ofNat n]
  else
    let m := n - 0x10000
    [UInt16.ofNat (0xD800 + m / 0x400), UInt16.ofNat (0xDC00 + m % 0x400)]

/-- The code units of a text. -/
def units (s : String) : List Unit16 := s.toList.flatMap fun c => codePointUnits c.toNat

def isHighSurrogate (u : Unit16) : Bool := 0xD800 ≤ u && u ≤ 0xDBFF

def isLowSurrogate (u : Unit16) : Bool := 0xDC00 ≤ u && u ≤ 0xDFFF

/-- The code point of a surrogate pair. -/
def pairCodePoint (high low : Unit16) : Nat :=
  0x10000 + (high.toNat - 0xD800) * 0x400 + (low.toNat - 0xDC00)

/-- The characters of a list of code units. -/
def charsOfUnits : List Unit16 → List Char
  | [] => []
  | [u] => [if isHighSurrogate u || isLowSurrogate u then replacement else Char.ofNat u.toNat]
  | u :: v :: rest =>
    if isHighSurrogate u then
      if isLowSurrogate v then Char.ofNat (pairCodePoint u v) :: charsOfUnits rest
      else replacement :: charsOfUnits (v :: rest)
    else if isLowSurrogate u then replacement :: charsOfUnits (v :: rest)
    else Char.ofNat u.toNat :: charsOfUnits (v :: rest)

/-- The text of a list of code units. -/
def ofUnits (us : List Unit16) : String := String.ofList (charsOfUnits us)

end GuestBoundary.Text
