import GuestBoundary.Interface.BufferAccess

/-!
# Strings

Native code sees the text of a string as its code units or as their modified UTF-8.  None of this
runs guest code.
-/

namespace GuestBoundary.Interface

open Entry

variable {H : Type}

/-- The code units of the string that a handle stands for. -/
def unitsOf (h : Handle) : Entry H (List Text.Unit16) := do
  let o ← require h "string"
  let w ← Action.world
  match (w.object o).units? with
  | some us => return us
  | none => fault .illegalArgument (w.dottedName o ++ " is not a string")

/-- The bytes of code units in native memory. -/
def bytesOfUnits (us : List Text.Unit16) : List UInt8 :=
  us.flatMap fun u => bytesOfNat 2 u.toNat

/-- The code units that bytes in native memory spell. -/
def unitsOfBytes : List UInt8 → List Text.Unit16
  | low :: high :: rest => UInt16.ofNat (natOfBytes [low, high]) :: unitsOfBytes rest
  | _ => []

/-- A new string of `n` units. -/
def newString (source : Option (List UInt8)) (n : Int32) : Entry H Handle := do
  let n ← capacity n
  let us ←
    if n = 0 then pure []
    else
      match source with
      | some bytes => pure (unitsOfBytes (front bytes (2 * n)))
      | none => fault .nullPointer "string units are null"
  let o ← Guest.newString us
  newLocal (some o)

/-- The number of code units. -/
def getStringLength (h : Handle) : Entry H Int32 := do
  let us ← unitsOf h
  return Int32.ofNat us.length

/-- A buffer with the code units. -/
def getStringChars (h : Handle) : Entry H Address := do
  let us ← unitsOf h
  bufferOf (bytesOfUnits us)

/-- A new string of the text that bytes spell; no bytes give null. -/
def newStringUtf (bytes : Option (List UInt8)) : Entry H Handle := do
  match bytes with
  | none => return .null
  | some bytes => do
    let o ← Guest.newString (Text.Modified.decodeLossy bytes)
    newLocal (some o)

/-- The largest value of an integer. -/
def maxInt : Nat := 0x7fffffff

/-- The number of bytes of the text, or the largest integer if that is too large for one. -/
def getStringUtfLength (h : Handle) : Entry H Int32 := do
  let us ← unitsOf h
  return Int32.ofNat (min (Text.Modified.encodedLength us) maxInt)

/-- The number of bytes of the text. -/
def getStringUtfLengthAsLong (h : Handle) : Entry H Int64 := do
  let us ← unitsOf h
  return Int64.ofNat (Text.Modified.encodedLength us)

/-- A buffer with the bytes of the text and a zero byte. -/
def getStringUtfChars (h : Handle) : Entry H Address := do
  let us ← unitsOf h
  bufferOf (Text.Modified.encode us ++ [0])

/-- The code units of a region, for memory that is there if `present` says so. -/
def getStringRegion (h : Handle) (start count : Int32) (present : Bool) :
    Entry H (List UInt8) := do
  let us ← unitsOf h
  let (start, count) ← region start count us.length .stringIndexOutOfBounds
  if count = 0 then return []
  else if present then return bytesOfUnits ((us.drop start).take count)
  else fault .nullPointer "destination buffer is null"

/-- The bytes of a region's text and a zero byte, for memory that is there if `present` says so. -/
def getStringUtfRegion (h : Handle) (start count : Int32) (present : Bool) :
    Entry H (List UInt8) := do
  let us ← unitsOf h
  let (start, count) ← region start count us.length .stringIndexOutOfBounds
  if present then return Text.Modified.encode ((us.drop start).take count) ++ [0]
  else fault .nullPointer "destination buffer is null"

end GuestBoundary.Interface
