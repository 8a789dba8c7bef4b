import GuestBoundary.Handle

/-!
# Local references and the frame stack

A local reference belongs to the innermost frame that was open when it was made.  Closing a frame
releases all of its references at once and may carry one object over into the frame around it.
Slots form one array that all frames share; each frame remembers how long it was when the frame
was opened (`mark`).  A slot's generation moves on whenever the slot is released and outlives the
slot itself, so no handle is issued twice before the generations run out.
-/

namespace GuestBoundary

/-- References that every native call may make without asking for room. -/
def minLocals : Nat := 16

/-- What a frame remembers. -/
structure Frame where
  /-- The number of slots when the frame was opened. -/
  mark : Nat
  /-- The room that was asked for. -/
  capacity : Nat
  deriving DecidableEq, Inhabited

/-- The local references of one thread. -/
structure Locals (α : Type) where
  slots : Array (Option α)
  /-- The current generation of every slot that was ever in use. -/
  generations : Array Nat
  /-- Empty slots above the innermost mark, the next one to reuse first. -/
  free : List Nat
  /-- The innermost frame. -/
  frame : Frame
  /-- The frames around it, nearest first. -/
  outer : List Frame
  /-- How many slots there may be. -/
  limit : Nat

namespace Locals

variable {α : Type}

/-- The slots of a table whose owner does not say how many there may be. -/
def defaultLimit : Nat := 1024

/-- Only the outermost frame, and no reference. -/
def empty (limit : Nat) : Locals α where
  slots := #[]
  generations := #[]
  free := []
  frame := ⟨0, minLocals⟩
  outer := []
  limit := max minLocals (min limit Handle.maxIndex)

/-- The number of open frames. -/
def depth (t : Locals α) : Nat := t.outer.length + 1

/-- The number of references. -/
def live (t : Locals α) : Nat := (t.slots.toList.filter Option.isSome).length

/-- The objects that references hold. -/
def objects (t : Locals α) : List α := t.slots.toList.filterMap id

/-- Whether the handle is of the generation that its slot is in. -/
def isCurrent (t : Locals α) (h : Handle) : Bool :=
  h.tag == .local && t.generations[h.index]? == some h.generation

/-- The object that a handle stands for. -/
def resolve (t : Locals α) (h : Handle) : Option α :=
  if t.isCurrent h then (t.slots[h.index]?).join else none

def isLive (t : Locals α) (h : Handle) : Bool := (t.resolve h).isSome

/-- Puts an object into an empty slot. -/
def place (t : Locals α) (index : Nat) (object : α) : Locals α :=
  { t with
    slots := if index < t.slots.size then t.slots.setIfInBounds index (some object)
      else t.slots.push (some object)
    generations := if index < t.generations.size then t.generations else t.generations.push 0 }

/-- The handle of a slot in its current generation. -/
def handleAt (t : Locals α) (index : Nat) : Handle :=
  Handle.encode index (t.generations[index]?.getD 0) .local

/-- Makes a reference in the innermost frame; no object is the null handle. -/
def create (t : Locals α) : Option α → Except AllocError (Handle × Locals α)
  | none => .ok (.null, t)
  | some object =>
    match t.free with
    | index :: free =>
      let t := { t with free }.place index object
      .ok (t.handleAt index, t)
    | [] =>
      if t.slots.size ≥ t.limit then .error (.localLimit t.limit)
      else
        let index := t.slots.size
        let t := t.place index object
        .ok (t.handleAt index, t)

/-- Moves the generations of the slots from `start` up to `stop` on. -/
def retire (generations : Array Nat) (start stop : Nat) : Array Nat :=
  generations.mapIdx fun i g => if start ≤ i ∧ i < stop then Handle.nextGeneration g else g

/-- Releases one reference; `none` if the handle is not live.  A slot below the mark stays empty
until its own frame is innermost again. -/
def delete? (t : Locals α) (h : Handle) : Option (Locals α) :=
  if t.isLive h then
    let index := h.index
    let generations := retire t.generations index (index + 1)
    if index < t.frame.mark then
      some { t with slots := t.slots.setIfInBounds index none, generations }
    else if index + 1 = t.slots.size then some { t with slots := t.slots.pop, generations }
    else
      some { t with
        slots := t.slots.setIfInBounds index none, generations, free := index :: t.free }
  else none

/-- Whether `capacity` more slots fit. -/
def hasRoom (t : Locals α) (capacity : Nat) : Bool := t.slots.size + capacity ≤ t.limit

/-- Opens a frame. -/
def push (t : Locals α) (capacity : Nat) : Except AllocError (Locals α) :=
  if t.hasRoom capacity then
    .ok { t with free := [], frame := ⟨t.slots.size, capacity⟩, outer := t.frame :: t.outer }
  else .error (.localLimit t.limit)

/-- Reserves room in the innermost frame. -/
def ensure (t : Locals α) (capacity : Nat) : Except AllocError (Locals α) :=
  if t.hasRoom capacity then
    .ok { t with frame := { t.frame with capacity := max t.frame.capacity capacity } }
  else .error (.localLimit t.limit)

/-- The empty slots from `mark` on, the last one first. -/
def emptySlots (slots : Array (Option α)) (mark : Nat) : List Nat :=
  ((List.range slots.size).filter fun i =>
    mark ≤ i && (slots[i]?.getD none).isNone).reverse

/-- Releases what the innermost frame made and makes the frame around it innermost; `none` if
there is none. -/
def close? (t : Locals α) : Option (Locals α) :=
  match t.outer with
  | [] => none
  | frame :: outer =>
    let slots := t.slots.extract 0 t.frame.mark
    some { t with
      slots
      generations := retire t.generations t.frame.mark t.slots.size
      free := emptySlots slots frame.mark
      frame
      outer }

/-- Closes the innermost frame and makes a reference to `result` in the one around it.  The frame
is closed even if that reference finds no room; without a frame to close nothing happens. -/
def pop? (t : Locals α) (result : Option α) : Option (Except AllocError Handle × Locals α) :=
  t.close?.map fun t =>
    match t.create result with
    | .ok (h, t) => (.ok h, t)
    | .error e => (.error e, t)

/-- Closes every frame but the outermost and releases every reference. -/
def reset (t : Locals α) : Locals α :=
  { t with
    slots := #[]
    generations := retire t.generations 0 t.slots.size
    free := []
    frame := t.outer.getLastD t.frame
    outer := [] }

end Locals

end GuestBoundary
