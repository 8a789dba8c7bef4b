import GuestBoundary.Fault

/-!
# Member identifiers

Native code names a method or a field by a number.  Numbers are handed out from one upwards, one
per member, on first use.  A table finds the member of a number by its place, and the number of a
member in an index.
-/

namespace GuestBoundary

/-- The members that have a number; `sort` says in messages what they are. -/
structure MemberTable (α : Type) where
  sort : String
  /-- The members in the order of their numbers. -/
  members : Array α
  /-- The number of each member. -/
  ids : List (α × Nat)

namespace MemberTable

variable {α : Type} [DecidableEq α]

def empty (sort : String) : MemberTable α := ⟨sort, #[], []⟩

/-- How many numbers are in use. -/
def size (t : MemberTable α) : Nat := t.members.size

/-- Gives a member the next number. -/
def push (t : MemberTable α) (m : α) : MemberTable α :=
  let members := t.members.push m
  { t with members, ids := (m, members.size) :: t.ids }

/-- The number of a member, and the table in which it has it. -/
def idFor (t : MemberTable α) (m : α) : UInt64 × MemberTable α :=
  match t.ids.lookup m with
  | some id => (UInt64.ofNat id, t)
  | none =>
    let t := t.push m
    (UInt64.ofNat t.size, t)

/-- The member that a number names. -/
def find (t : MemberTable α) (id : UInt64) : Except ContractViolation α :=
  match id.toNat with
  | 0 => .error (.invalidMemberId t.sort id)
  | i + 1 =>
    match t.members[i]? with
    | some m => .ok m
    | none => .error (.invalidMemberId t.sort id)

end MemberTable

end GuestBoundary
