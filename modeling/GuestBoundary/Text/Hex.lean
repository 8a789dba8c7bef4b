/-!
# Hexadecimal numerals

Numbers in messages, symbols and bit patterns are written in lower-case hexadecimal.
-/

namespace GuestBoundary.Text

/-- The shortest hexadecimal numeral of `n`. -/
def hex (n : Nat) : String := String.ofList (Nat.toDigits 16 n)

/-- The hexadecimal digits of `n`, filled up with zeros on the left to `width` digits. -/
def hexDigits (width n : Nat) : List Char :=
  let digits := Nat.toDigits 16 n
  List.replicate (width - digits.length) '0' ++ digits

/-- The numeral of `n` with at least `width` digits. -/
def hexPadded (width n : Nat) : String := String.ofList (hexDigits width n)

/-- The numeral of `n` behind the mark `0x`. -/
def address (n : Nat) : String := "0x" ++ hex n

end GuestBoundary.Text
