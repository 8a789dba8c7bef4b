import GuestBoundary.Interface.Argument
import GuestBoundary.Script.Description

/-!
# Reports

Every step that a script runs leaves an entry in the transcript, in the order in which the steps end.
An entry holds what the step came to, and what the running thread has pending and in use after it.
A native function that is called leaves an entry at its start.
-/

namespace GuestBoundary.Script

/-- What can be told about an object on request. -/
structure Inspection where
  description : Description
  text : Option String
  units : Option (List Text.Unit16)
  arrayLength : Option Nat
  /-- The class that the object stands for. -/
  mirrored : Option String
  /-- The member that the object stands for. -/
  member : Option String

/-- A throwable that a step let through. -/
structure ThrownSummary where
  description : String
  className : String

/-- A binding in words. -/
structure BindingSummary where
  method : String
  signature : Signature
  hasFunction : Bool

/-- What can be told about a bridge. -/
structure BridgeSummary where
  config : Config
  /-- How many signatures were read. -/
  signatures : Nat
  bindings : Nat
  /-- How many global references there may be. -/
  globalsLimit : Nat
  /-- Whether the root class is found. -/
  findsRoot : Bool

/-- What a call of the interface came to. -/
structure CallReport where
  returned : Interface.Returned
  /-- The name given to a buffer that was returned. -/
  label : Option String
  /-- The object for which a returned handle stands. -/
  object : Description
  /-- The byte in which copies are noted, if it was passed. -/
  flag : Option UInt8
  /-- The elements looked at in the memory that was passed. -/
  written : Option (Primitive × List UInt8)

/-- What a step comes to. -/
inductive Report where
  /-- The step could not be read. -/
  | unread (expectation : String)
  | done
  | nothing
  | truth (b : Bool)
  | number (n : Int)
  | text (s : String)
  | texts (ss : List String)
  /-- A value with its kind. -/
  | value (d : Description)
  /-- An object. -/
  | object (d : Description)
  | handle (h : Handle)
  | refKind (k : RefKind)
  | field (s : FieldSummary)
  | method (s : MethodSummary)
  | classSummary (s : ClassSummary)
  | inspection (i : Inspection)
  | identity (identity : Nat) (object value : String)
  | thrown (t : ThrownSummary)
  | undefined (e : DefineError)
  | unallocated (e : AllocError)
  | violation (v : ContractViolation)
  | binding (s : BindingSummary)
  | unbound (e : BindError)
  | bridge (s : BridgeSummary)
  /-- Whether the environment was the current one already. -/
  | attached (same : Bool)
  | environment
  | status (s : Status)
  | conversion (m : ConversionMode)
  | elements (type : Primitive) (bytes : List UInt8)
  | called (c : CallReport)
  | joined

/-- What a thread has in use. -/
structure Usage where
  frames : Nat
  locals : Nat
  globals : Nat
  buffers : Nat
  bytes : Nat

/-- An argument that a native function gets. -/
inductive Passed where
  | value (v : Value)
  | handle (h : Handle)

/-- An entry of a transcript; `depth` counts the native functions in progress. -/
inductive LogEntry where
  /-- A step ended: what it came to, the pending throwable, what is in use, and what was traced. -/
  | ended (depth : Nat) (report : Report) (pending : Option String) (usage : Option Usage)
      (trace : List String)
  /-- A native function was called. -/
  | entered (depth : Nat) (function : String) (receiver : Handle) (object : Description)
      (args : List Passed)

end GuestBoundary.Script
