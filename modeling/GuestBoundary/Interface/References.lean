import GuestBoundary.Interface.Operand

/-!
# References

Making and deleting references, opening and closing frames, and asking whether two handles stand
for the same object.  None of this runs guest code.
-/

namespace GuestBoundary.Interface

open Entry

variable {H : Type}

/-- A new strong global reference to the object of a handle. -/
def newGlobalRef (h : Handle) : Entry H Handle := do
  let o ← object h
  onBridge fun b =>
    match b.globals.createStrong o with
    | .ok (h, globals) => .ok (h, { b with globals })
    | .error e => .error (.alloc e)

/-- A new weak global reference to the object of a handle. -/
def newWeakGlobalRef (h : Handle) : Entry H Handle := do
  let o ← object h
  onBridge fun b =>
    match b.globals.createWeak o with
    | .ok (h, globals) => .ok (h, { b with globals })
    | .error e => .error (.alloc e)

/-- Releases a global reference of the given sort, which messages call `expected`; null is let
pass. -/
def deleteGlobal (kind : RefKind) (expected : String) (h : Handle) : Entry H Unit :=
  if h.isNull then return ()
  else if h.tag ≠ kind then violation (.invalidHandle h.raw expected)
  else onBridge fun b =>
    match b.globals.delete h with
    | .ok globals => .ok ((), { b with globals })
    | .error v => .error (.contract v)

/-- A new local reference to the object of a handle. -/
def newLocalRef (h : Handle) : Entry H Handle := do
  let o ← object h
  newLocal o

/-- Releases a local reference; null is let pass. -/
def deleteLocalRef (h : Handle) : Entry H Unit :=
  if h.isNull then return ()
  else onAttachment fun a =>
    match a.locals.delete? h with
    | some locals => .ok ((), { a with locals })
    | none => .error (.contract (.invalidHandle h.raw "local"))

/-- Opens a frame. -/
def pushLocalFrame (n : Int32) : Entry H Unit := do
  let n ← capacity n
  pushFrame n

/-- Closes the innermost frame and makes a reference to the object of a handle in the one
around it. -/
def popLocalFrame (h : Handle) : Entry H Handle := do
  let o ← object h
  popFrame o

/-- Reserves room in the innermost frame. -/
def ensureLocalCapacity (n : Int32) : Entry H Unit := do
  let n ← capacity n
  onAttachment fun a =>
    match a.locals.ensure n with
    | .ok locals => .ok ((), { a with locals })
    | .error e => .error (.alloc e)

/-- Whether two handles stand for the same object, or both for none. -/
def isSameObject (a b : Handle) : Entry H Bool := do
  let x ← object a
  let y ← object b
  return x == y

/-- The sort of a live handle, and otherwise no sort. -/
def getObjectRefType (h : Handle) : Entry H RefKind := Action.read fun w => w.refKind h

end GuestBoundary.Interface
