import GuestBoundary.Fault

/-!
# Buffers handed to native code

Every block of memory that native code gets is entered here under its address and must be handed
back exactly once.  The host picks the addresses; the registry keeps to its byte budget, tells a
second release from the release of something that was never handed out, and keeps what native code
writes.  It remembers a bounded number of released addresses.
-/

namespace GuestBoundary

/-- A block of memory: `written` is its front part, everything after it is zero. -/
structure Block where
  length : Nat
  written : List UInt8
  deriving DecidableEq

/-- The bytes of a block. -/
def Block.contents (b : Block) : List UInt8 :=
  b.written.take b.length ++ List.replicate (b.length - b.written.length) 0

/-- The blocks that are out, and the addresses that came back. -/
structure Buffers where
  blocks : List (Address × Block)
  released : List Address
  inUse : Nat
  limit : Nat

namespace Buffers

/-- The byte budget of a registry whose owner does not say how large it is. -/
def defaultLimit : Nat := 0x10000000

def empty (limit : Nat) : Buffers := ⟨[], [], 0, limit⟩

/-- How many released addresses are remembered before all are forgotten. -/
def historyLimit : Nat := 4096

/-- Lengths that no host grants. -/
def hostLimit : Nat := 0x4000000000000000

/-- The largest number of bytes that a word can count. -/
def wordLimit : Nat := 0xffffffffffffffff

/-- The block at an address. -/
def find? (r : Buffers) (a : Address) : Option Block := r.blocks.lookup a

/-- How long the block at an address is. -/
def lengthOf? (r : Buffers) (a : Address) : Option Nat := (r.find? a).map Block.length

/-- Enters a block of zeros under the address that the host gave, if it gave one. -/
def allocate (r : Buffers) (length : Nat) (host : Option Address) : Except AllocError Buffers :=
  if min (r.inUse + length) wordLimit > r.limit then .error (.bufferLimit length r.inUse r.limit)
  else
    match host with
    | none => .error (.outOfMemory length)
    | some a =>
      .ok { r with
        blocks := (a, ⟨length, []⟩) :: r.blocks
        released := r.released.filter (· ≠ a)
        inUse := r.inUse + length }

/-- Replaces the bytes of a block. -/
def store (r : Buffers) (a : Address) (bytes : List UInt8) : Buffers :=
  { r with
    blocks := r.blocks.map fun entry =>
      if entry.1 = a then (a, { entry.2 with written := bytes }) else entry }

/-- Enters a block that holds `bytes`. -/
def allocateFrom (r : Buffers) (bytes : List UInt8) (host : Option Address) :
    Except AllocError Buffers :=
  match r.allocate bytes.length host with
  | .error e => .error e
  | .ok r =>
    match host with
    | some a => .ok (r.store a bytes)
    | none => .ok r

/-- The misuse of naming an address that is not out. -/
def missing (r : Buffers) (a : Address) : ContractViolation :=
  if r.released.contains a then .doubleRelease a else .unknownBuffer a

/-- The bytes of the block at an address. -/
def contents (r : Buffers) (a : Address) : Except ContractViolation (List UInt8) :=
  match r.find? a with
  | some block => .ok block.contents
  | none => .error (r.missing a)

/-- Takes a block back and answers its length. -/
def release (r : Buffers) (a : Address) : Except ContractViolation (Nat × Buffers) :=
  match r.find? a with
  | some block =>
    let history := if r.released.length ≥ historyLimit then [] else r.released
    .ok (block.length, { r with
      blocks := r.blocks.filter fun entry => entry.1 ≠ a
      released := a :: history
      inUse := r.inUse - block.length })
  | none => .error (r.missing a)

end Buffers

end GuestBoundary
