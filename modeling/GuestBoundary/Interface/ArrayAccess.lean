import GuestBoundary.Interface.BufferAccess

/-!
# Arrays

References in an array are read and written one at a time; a reference is stored only if the
elements of the array may be of its class.  The elements of a primitive array reach native code as
copies: in a buffer that is copied back when it is released, or as a region.  None of this runs
guest code.
-/

namespace GuestBoundary.Interface

open Entry

variable {H : Type}

/-- The array that a handle stands for, and its elements. -/
def arrayOf (h : Handle) : Entry H (ObjectRef × Elements) := do
  let o ← require h "array"
  let w ← Action.world
  match (w.object o).elements? with
  | some e => return (o, e)
  | none => fault .illegalArgument (w.dottedName o ++ " is not an array")

/-- The fault that an array is not of the wanted type. -/
def notPrimitive {α : Type} (expected : Option Primitive) (o : ObjectRef) : Entry H α := do
  let wanted :=
    match expected with
    | some p => p.keyword
    | none => "primitive"
  let w ← Action.world
  fault .illegalArgument (w.dottedName o ++ " is not a " ++ wanted ++ " array")

/-- The primitive array that a handle stands for; its type is the expected one, if there is one. -/
def primitiveArrayOf (expected : Option Primitive) (h : Handle) :
    Entry H (ObjectRef × Primitive × List UInt8) := do
  let (o, e) ← arrayOf h
  match e with
  | .primitive p bytes =>
    if expected.all fun q => q == p then return (o, p, bytes) else notPrimitive expected o
  | .references _ => notPrimitive expected o

/-- Replaces the elements of an array. -/
def setElements (o : ObjectRef) (e : Elements) : Entry H Unit :=
  Action.update fun w => w.setObject o { w.object o with body := .array e }

/-- An index of a sequence of `total` elements. -/
def elementIndex (i : Int32) (total : Nat) : Entry H Nat :=
  if 0 ≤ i.toInt ∧ i.toInt < total then return i.toInt.toNat
  else
    fault .arrayIndexOutOfBounds ("index " ++ toString i.toInt ++ " out of bounds for length " ++
      toString total)

/-- The number of elements. -/
def getArrayLength (h : Handle) : Entry H Int32 := do
  let (_, e) ← arrayOf h
  return Int32.ofNat e.size

/-! ## Reference arrays -/

/-- A new array with the same reference everywhere. -/
def newObjectArray (n : Int32) (element initial : Handle) : Entry H Handle := do
  let c ← classOf element
  let initial ← object initial
  let o ← guest (Guest.newObjectArray c n initial)
  newLocal (some o)

/-- The fault that an array holds no references. -/
def notReferences {α : Type} (o : ObjectRef) : Entry H α := do
  let w ← Action.world
  fault .illegalArgument (w.dottedName o ++ " is not a reference array")

/-- A local reference to an element. -/
def getObjectArrayElement (h : Handle) (i : Int32) : Entry H Handle := do
  let (o, e) ← arrayOf h
  let i ← elementIndex i e.size
  match e.get? i with
  | some (.reference element) => newLocal element
  | _ => notReferences o

/-- Writes an element. -/
def setObjectArrayElement (h : Handle) (i : Int32) (value : Handle) : Entry H Unit := do
  let value ← object value
  let (o, e) ← arrayOf h
  let w ← Action.world
  match (w.registry.get (w.classOf o)).element? with
  | none => notReferences o
  | some c => do
    let i ← elementIndex i e.size
    if value.all fun v => w.isInstance v c then
      match e.set? i (.reference value) with
      | some e => setElements o e
      | none => return ()
    else
      let name := (value.map w.dottedName).getD ""
      fault .arrayStore (name ++ " cannot be stored in " ++ w.dottedName o)

/-! ## Primitive arrays -/

/-- A new array of zeros. -/
def newArray (p : Primitive) (n : Int32) : Entry H Handle := do
  let o ← guest (Guest.newPrimitiveArray p n)
  newLocal (some o)

/-- A buffer with the elements. -/
def getElements (expected : Option Primitive) (h : Handle) : Entry H Address := do
  let (_, _, bytes) ← primitiveArrayOf expected h
  bufferOf bytes

/-- Copies the bytes of a buffer back into the array. -/
def copyBack (expected : Option Primitive) (h : Handle) (bytes : List UInt8) : Entry H Unit := do
  let (o, p, old) ← primitiveArrayOf expected h
  match (Elements.primitive p old).write? 0 bytes with
  | some e => setElements o e
  | none =>
    fault .illegalArgument (toString bytes.length ++ " byte buffer does not match a " ++
      toString (Elements.primitive p old).size ++ "-element array")

/-- Copies a buffer back into its array or frees it, or both, as the mode says.  The buffer is
freed even if it does not fit the array. -/
def releaseElements (expected : Option Primitive) (h : Handle) (a : Address) (mode : Int32) :
    Entry H Unit := do
  match ReleaseMode.ofCode? mode with
  | none => fault .illegalArgument ("unknown release mode " ++ toString mode.toInt)
  | some mode => do
    let bytes ← bufferContents a
    let copied ←
      if mode.copiesBack then (copyBack expected h bytes).result else pure (.ok ())
    if mode.frees then releaseBuffer a else pure ()
    Action.ofExcept copied

/-- The bytes of a region, for memory that is there if `present` says so. -/
def getArrayRegion (p : Primitive) (h : Handle) (start count : Int32) (present : Bool) :
    Entry H (List UInt8) := do
  let (_, p, bytes) ← primitiveArrayOf (some p) h
  let e := Elements.primitive p bytes
  let (start, count) ← region start count e.size .arrayIndexOutOfBounds
  if count = 0 then return []
  else if present then return (e.read? start count).getD []
  else fault .nullPointer "destination buffer is null"

/-- Writes a region. -/
def setArrayRegion (p : Primitive) (h : Handle) (start count : Int32)
    (source : Option (List UInt8)) : Entry H Unit := do
  let (o, p, bytes) ← primitiveArrayOf (some p) h
  let e := Elements.primitive p bytes
  let (start, count) ← region start count e.size .arrayIndexOutOfBounds
  if count = 0 then return ()
  else
    match source with
    | none => fault .nullPointer "source buffer is null"
    | some new =>
      match e.write? start (front new (count * p.width)) with
      | some e => setElements o e
      | none =>
        fault .arrayIndexOutOfBounds ("cannot write " ++ toString (count * p.width) ++
          " bytes at element " ++ toString start ++ " of a " ++ toString e.size ++
          "-element array")

end GuestBoundary.Interface
