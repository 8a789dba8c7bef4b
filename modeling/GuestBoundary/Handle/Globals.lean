import GuestBoundary.Handle

/-!
# Global references

Global references are shared by all threads and live until they are deleted.  A strong one keeps
its object; a weak one does not, and stands for no object once its object is gone.  Released slots
are reused in the order of their release, each in its next generation; a slot whose generations
have run out is not used again.
-/

namespace GuestBoundary

/-- What a slot of the table holds. -/
inductive Referent (α : Type) where
  | vacant
  | strong (object : α)
  | weak (object : α)

/-- One slot. -/
structure GlobalSlot (α : Type) where
  generation : Nat
  referent : Referent α

/-- The table of strong and weak global references. -/
structure Globals (α : Type) where
  slots : Array (GlobalSlot α)
  /-- Vacant slots, the next one to reuse first. -/
  free : List Nat
  /-- The number of references. -/
  live : Nat
  limit : Nat

namespace Referent

variable {α : Type}

/-- The sort of handle that names the slot. -/
def kind : Referent α → RefKind
  | vacant => .invalid
  | strong _ => .global
  | weak _ => .weakGlobal

/-- The object, if there is one and it is still there. -/
def object? (alive : α → Bool) : Referent α → Option α
  | vacant => none
  | strong o => some o
  | weak o => if alive o then some o else none

end Referent

namespace Globals

variable {α : Type}

/-- The references of a table whose owner does not say how many there may be. -/
def defaultLimit : Nat := 65536

def empty (limit : Nat) : Globals α := ⟨#[], [], 0, min limit Handle.maxIndex⟩

/-- The objects that the table keeps. -/
def objects (t : Globals α) : List α :=
  t.slots.toList.filterMap fun slot =>
    match slot.referent with
    | .strong o => some o
    | _ => none

/-- The occupant that a handle names: right slot, right generation, right sort. -/
def occupant? (t : Globals α) (h : Handle) : Option (Referent α) :=
  match t.slots[h.index]? with
  | some slot =>
    if slot.generation = h.generation ∧ slot.referent.kind = h.tag ∧ h.tag ≠ .invalid then
      some slot.referent
    else none
  | none => none

def isLive (t : Globals α) (h : Handle) : Bool := (t.occupant? h).isSome

/-- The sort of a live handle, and otherwise no sort. -/
def kindOf (t : Globals α) (h : Handle) : RefKind := if t.isLive h then h.tag else .invalid

/-- The object that a handle stands for, where `alive` tells which objects are still there. -/
def resolve (t : Globals α) (alive : α → Bool) (h : Handle) : Option α :=
  (t.occupant? h).bind (Referent.object? alive)

/-- Puts an occupant into a vacant or a new slot. -/
def insert (t : Globals α) (referent : Referent α) : Except AllocError (Handle × Globals α) :=
  if t.live ≥ t.limit then .error (.globalLimit t.limit)
  else
    match t.free with
    | index :: free =>
      let generation := (t.slots[index]?.map (·.generation)).getD 0
      .ok (Handle.encode index generation referent.kind,
        { t with
          slots := t.slots.setIfInBounds index ⟨generation, referent⟩
          free
          live := t.live + 1 })
    | [] =>
      .ok (Handle.encode t.slots.size 0 referent.kind,
        { t with slots := t.slots.push ⟨0, referent⟩, live := t.live + 1 })

/-- Makes a strong reference; no object is the null handle. -/
def createStrong (t : Globals α) : Option α → Except AllocError (Handle × Globals α)
  | some o => t.insert (.strong o)
  | none => .ok (.null, t)

/-- Makes a weak reference; no object is the null handle. -/
def createWeak (t : Globals α) : Option α → Except AllocError (Handle × Globals α)
  | some o => t.insert (.weak o)
  | none => .ok (.null, t)

/-- Releases a reference.  Any handle but a live one of its own sort is misuse. -/
def delete (t : Globals α) (h : Handle) : Except ContractViolation (Globals α) :=
  if t.isLive h then
    let generation := Handle.nextGeneration h.generation
    .ok { t with
      slots := t.slots.setIfInBounds h.index ⟨generation, .vacant⟩
      free := if generation = 0 then t.free else t.free ++ [h.index]
      live := t.live - 1 }
  else
    .error (.invalidHandle h.raw (if h.tag = .weakGlobal then "weak global" else "global"))

end Globals

end GuestBoundary
