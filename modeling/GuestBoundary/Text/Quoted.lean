import GuestBoundary.Text.Hex
import GuestBoundary.Text.Unprintable

/-!
# Quoted text

Messages quote the text they complain about.  A backslash and the quote in use are escaped, the
usual controls have letters, and any other character without a glyph is written by number.
-/

namespace GuestBoundary.Text

/-- The written form of a character between marks `mark`. -/
def escape (mark : Char) (c : Char) : String :=
  if c = '\x00' then "\\0"
  else if c = '\t' then "\\t"
  else if c = '\r' then "\\r"
  else if c = '\n' then "\\n"
  else if c = mark ∨ c = '\\' then String.ofList ['\\', c]
  else if isUnprintable c then "\\u\x7b" ++ hex c.toNat ++ "\x7d"
  else String.singleton c

/-- Text between double quotes. -/
def quote (s : String) : String := "\"" ++ String.join (s.toList.map (escape '"')) ++ "\""

/-- One character between single quotes. -/
def quoteChar (c : Char) : String := "'" ++ escape '\'' c ++ "'"

end GuestBoundary.Text
