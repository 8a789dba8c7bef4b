import GuestBoundary.Text.Hex
import GuestBoundary.ThreadId

/-!
# What can go wrong

A *guest fault* is an error that guest code can see: it has a kind, which names the throwable
class it surfaces as, and a message.  A *contract violation* is misuse of the interface by native
code; it ends the run.  An *allocation error* says that a table or the byte budget is full, and
reaches the guest as an out-of-memory fault.
-/

namespace GuestBoundary

/-- The guest faults that the boundary raises. -/
inductive FaultKind where
  | noSuchField
  | noSuchMethod
  | noClassDefFound
  | classCast
  | arrayIndexOutOfBounds
  | stringIndexOutOfBounds
  | outOfMemory
  | stackOverflow
  | nullPointer
  | illegalArgument
  | illegalMonitorState
  | unsupportedOperation
  | unsatisfiedLink
  | instantiation
  | arrayStore
  | negativeArraySize
  | abstractMethod
  | internal
  deriving DecidableEq, Inhabited

namespace FaultKind

/-- Every kind, in the order in which the throwable classes are defined. -/
def all : List FaultKind :=
  [noSuchField, noSuchMethod, noClassDefFound, classCast, arrayIndexOutOfBounds,
    stringIndexOutOfBounds, outOfMemory, stackOverflow, nullPointer, illegalArgument,
    illegalMonitorState, unsupportedOperation, unsatisfiedLink, instantiation, arrayStore,
    negativeArraySize, abstractMethod, internal]

theorem mem_all (k : FaultKind) : k ∈ all := by cases k <;> decide

/-- The kind's own name. -/
def name : FaultKind → String
  | noSuchField => "NoSuchField"
  | noSuchMethod => "NoSuchMethod"
  | noClassDefFound => "NoClassDefFound"
  | classCast => "ClassCast"
  | arrayIndexOutOfBounds => "ArrayIndexOutOfBounds"
  | stringIndexOutOfBounds => "StringIndexOutOfBounds"
  | outOfMemory => "OutOfMemory"
  | stackOverflow => "StackOverflow"
  | nullPointer => "NullPointer"
  | illegalArgument => "IllegalArgument"
  | illegalMonitorState => "IllegalMonitorState"
  | unsupportedOperation => "UnsupportedOperation"
  | unsatisfiedLink => "UnsatisfiedLink"
  | instantiation => "Instantiation"
  | arrayStore => "ArrayStore"
  | negativeArraySize => "NegativeArraySize"
  | abstractMethod => "AbstractMethod"
  | internal => "Internal"

def ofName? (s : String) : Option FaultKind := all.find? fun k => k.name == s

/-- Whether the throwable belongs to the branch of errors and not of exceptions. -/
def isError : FaultKind → Bool
  | noSuchField | noSuchMethod | noClassDefFound | outOfMemory | stackOverflow
  | unsatisfiedLink | abstractMethod | internal => true
  | _ => false

/-- The internal name of the throwable class. -/
def className (k : FaultKind) : String :=
  "java/lang/" ++ k.name ++ if k.isError then "Error" else "Exception"

end FaultKind

/-- A guest fault before it is made into a throwable. -/
structure GuestFault where
  kind : FaultKind
  message : String
  deriving DecidableEq

/-- The fault on one line. -/
def GuestFault.display (f : GuestFault) : String := f.kind.className ++ ": " ++ f.message

/-- A number that native code passes as the place of a buffer. -/
abbrev Address := UInt64

/-- Misuse of the interface by native code. -/
inductive ContractViolation where
  /-- A buffer that was never handed out. -/
  | unknownBuffer (address : Address)
  /-- A buffer that was released before. -/
  | doubleRelease (address : Address)
  /-- A reference that is not a live one of the expected sort. -/
  | invalidHandle (raw : UInt64) (expected : String)
  /-- A frame closed that was never opened. -/
  | unbalancedFrame
  /-- A number that names no method or no field. -/
  | invalidMemberId (sort : String) (id : UInt64)
  /-- A call without an environment. -/
  | missingEnvironment
  /-- A call with the environment of another thread. -/
  | foreignEnvironment (owner user : ThreadId)
  /-- Native code asked to stop. -/
  | requested (message : String)
  deriving DecidableEq

/-- The violation on one line; `label` and `thread` say how addresses and threads are written. -/
def ContractViolation.messageWith (label : Address → String) (thread : ThreadId → String) :
    ContractViolation → String
  | unknownBuffer a => "release of unknown native buffer at " ++ label a
  | doubleRelease a => "double release of native buffer at " ++ label a
  | invalidHandle raw expected => "invalid " ++ expected ++ " handle " ++ Text.address raw.toNat
  | unbalancedFrame => "local frame pop without matching push"
  | invalidMemberId sort id => "invalid " ++ sort ++ " id " ++ Text.address id.toNat
  | missingEnvironment => "invalid native environment: null environment"
  | foreignEnvironment owner user =>
    "invalid native environment: environment of " ++ thread owner ++ " used on " ++ thread user
  | requested message => "fatal error requested by native code: " ++ message

/-- The violation on one line, addresses in hexadecimal. -/
def ContractViolation.message (v : ContractViolation) : String :=
  v.messageWith (fun a => Text.address a.toNat) ThreadId.describe

/-- A table or the byte budget is full. -/
inductive AllocError where
  | localLimit (limit : Nat)
  | globalLimit (limit : Nat)
  | bufferLimit (requested inUse limit : Nat)
  /-- The host has no memory left. -/
  | outOfMemory (length : Nat)
  deriving DecidableEq

def AllocError.message : AllocError → String
  | localLimit limit => s!"local reference table overflow (limit {limit})"
  | globalLimit limit => s!"global reference table overflow (limit {limit})"
  | bufferLimit requested inUse limit =>
    s!"native buffer of {requested} bytes exceeds budget ({inUse} of {limit} in use)"
  | outOfMemory length => s!"host allocation of {length} bytes failed"

/-- What a caller is told that closed a frame whose result found no room. -/
def AllocError.promotionMessage (e : AllocError) : String :=
  "cannot promote frame result: " ++ e.message

end GuestBoundary
