import GuestBoundary.Interface.Function
import GuestBoundary.Native.Call

/-!
# What crosses the interface

Native code passes handles, numbers, words and pieces of memory.  `Argument` is one thing passed,
`Answer` is what comes back: a result, and what was written to the memory that was passed.
-/

namespace GuestBoundary.Interface

/-- A method to be bound: text for its name and its descriptor, and the function. -/
structure NativeEntry where
  name : Option (List UInt8)
  descriptor : Option (List UInt8)
  function : Address

/-- One argument of a function of the interface. -/
inductive Argument where
  | handle (h : Handle)
  | member (id : UInt64)
  /-- The bytes of a text, or no text. -/
  | text (bytes : Option (List UInt8))
  | primitive (v : Value)
  /-- A slot for each argument of a method, or none at all. -/
  | arguments (slots : Option (List Slot))
  /-- Whether a place to note a copy is passed. -/
  | copyFlag (present : Bool)
  | buffer (a : Address)
  /-- Whether memory to write to is passed. -/
  | target (present : Bool)
  /-- The bytes of elements, or none at all. -/
  | source (bytes : Option (List UInt8))
  | natives (entries : Option (List NativeEntry))

/-- The bytes of a text, which ends at the first zero. -/
def textBytes (bytes : List UInt8) : List UInt8 := bytes.takeWhile fun b => b != 0

/-- The first `n` bytes of memory that starts with `bytes`; whatever lies behind is zero. -/
def front (bytes : List UInt8) (n : Nat) : List UInt8 :=
  bytes.take n ++ List.replicate (n - bytes.length) 0

/-- The result of a function of the interface. -/
inductive Returned where
  | nothing
  | handle (h : Handle)
  | member (id : UInt64)
  | primitive (v : Value)
  | buffer (a : Address)
  | refKind (k : RefKind)

namespace Returned

/-- The result as a word: integers are extended by their sign, nothing is zero. -/
def word : Returned → UInt64
  | nothing => 0
  | handle h => h.raw
  | member id => id
  | primitive v => v.toBits.getD 0
  | buffer a => a
  | refKind k => UInt64.ofNat k.code

/-- The code of a status. -/
def status (s : Status) : Returned := primitive (.int s.code)

/-- A truth value. -/
def boolean (b : Bool) : Returned := primitive (.boolean b)

end Returned

/-- What comes back from a function of the interface. -/
structure Answer where
  returned : Returned
  /-- Whether a copy was noted. -/
  copied : Bool
  /-- The bytes written to the memory that was passed. -/
  written : List UInt8

namespace Answer

/-- A result, and nothing written. -/
def plain (r : Returned) : Answer := ⟨r, false, []⟩

end Answer

/-- What a function answers that raises: an error status, or the zero of its result. -/
def Function.failure : Function → Returned
  | throw | throwNew | pushLocalFrame | ensureLocalCapacity | registerNatives | unregisterNatives
  | monitorEnter | monitorExit => .status .err
  | f =>
    match f.reply with
    | .nothing => .nothing
    | .handle => .handle .null
    | .member => .member 0
    | .primitive p => .primitive (Value.zero p)
    | .buffer => .buffer 0
    | .refKind => .refKind .invalid

end GuestBoundary.Interface
