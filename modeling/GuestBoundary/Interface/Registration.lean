import GuestBoundary.Interface.Operand

/-!
# Registration of native functions

Native code binds the native methods of a class to its functions, and drops the bindings again.
-/

namespace GuestBoundary.Interface

open Entry

variable {H : Type}

/-- Binds methods in order; the first failure leaves the bindings in front of it in place. -/
def registerEach (c : ClassId) : List NativeEntry → Entry H Unit
  | [] => return ()
  | e :: es => do
    let name ← text e.name "method name"
    let descriptor ← text e.descriptor "method signature"
    let r ← Action.read World.registry
    discard (onBridge fun b => (b.register r c name descriptor e.function).mapError .bind)
    registerEach c es

/-- Binds the first `n` methods of a list. -/
def registerNatives (h : Handle) (entries : Option (List NativeEntry)) (n : Int32) :
    Entry H Unit := do
  let c ← classOf h
  let n ← capacity n
  if n = 0 then return ()
  else
    match entries with
    | none => fault .nullPointer "method table is null"
    | some entries =>
      registerEach c (entries.take n ++ List.replicate (n - entries.length) ⟨none, none, 0⟩)

/-- Drops the bindings of a class. -/
def unregisterNatives (h : Handle) : Entry H Unit := do
  let c ← classOf h
  let r ← Action.read World.registry
  onBridge fun b => .ok ((), (b.unregister r c).2)

end GuestBoundary.Interface
