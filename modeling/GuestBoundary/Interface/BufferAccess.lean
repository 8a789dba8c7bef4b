import GuestBoundary.Interface.Operand

/-!
# Buffers for native code

The bytes of a string or an array reach native code in a buffer, and the buffer comes back by its
address.
-/

namespace GuestBoundary

namespace World

variable {H : Type}

/-- What the host answers when it is asked for a block. -/
def grant (w : World H) (length : Nat) : Option Address := w.memory w.blocks length

end World

namespace Entry

variable {H : Type}

/-- A new buffer that holds `bytes`. -/
def bufferOf (bytes : List UInt8) : Entry H Address := do
  let host ← Action.read fun w => w.grant bytes.length
  onBridge fun b =>
    match b.buffers.allocateFrom bytes host with
    | .ok buffers => .ok ((), { b with buffers })
    | .error e => .error (.alloc e)
  Action.update fun w => { w with blocks := w.blocks + 1 }
  return host.getD 0

/-- The bytes of a buffer. -/
def bufferContents (a : Address) : Entry H (List UInt8) := do
  let b ← bridge
  Action.ofExcept ((b.buffers.contents a).mapError .contract)

/-- Takes a buffer back. -/
def releaseBuffer (a : Address) : Entry H Unit := onBridge fun b =>
  match b.buffers.release a with
  | .ok (_, buffers) => .ok ((), { b with buffers })
  | .error v => .error (.contract v)

end Entry

end GuestBoundary
