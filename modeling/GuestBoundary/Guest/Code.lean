import GuestBoundary.Fault
import GuestBoundary.Text.Units
import GuestBoundary.Value.Basic

/-!
# Guest code

The body of a guest method is an expression.  Expressions compute with integers, read and write
fields, call methods, make objects, throw and catch; a few methods of the basic classes do what no
expression can.
-/

namespace GuestBoundary

/-- An expression of guest code. -/
inductive Expr where
  /-- A primitive, null or nothing. -/
  | value (v : Value)
  /-- The object that the host holds under a name. -/
  | named (name : String)
  /-- A new string. -/
  | string (units : List Text.Unit16)
  /-- An argument of the call. -/
  | argument (index : Nat)
  /-- The receiver of the call. -/
  | this
  /-- One after the other; the last one's value. -/
  | sequence (parts : List Expr)
  /-- Leaves a line in the trace. -/
  | trace (text : String)
  /-- The sum of two integers, wrapping; whatever is no integer counts as zero. -/
  | add (left right : Expr)
  /-- One of two expressions: the first if the left integer is less than the right one. -/
  | ifLess (left right yes no : Expr)
  /-- The second expression's value if the first one throws. -/
  | attempt (body handler : Expr)
  | getField (name descriptor : String)
  | putField (name descriptor : String) (value : Expr)
  | getStatic (owner name descriptor : String)
  | putStatic (owner name descriptor : String) (value : Expr)
  | callStatic (owner name descriptor : String) (arguments : List Expr)
  /-- Calls the implementation that the receiver's class selects. -/
  | callVirtual (receiver : Expr) (name descriptor : String) (arguments : List Expr)
  /-- Calls the named method itself on the receiver of the current call. -/
  | callSpecial (owner name descriptor : String) (arguments : List Expr)
  /-- A new object on which a constructor has run. -/
  | new (owner descriptor : String) (arguments : List Expr)
  /-- Throws a fault. -/
  | throwFault (kind : FaultKind) (message : String)
  /-- Throws a new throwable of a class. -/
  | throwNew (owner : String) (message : Option String)
  /-- Throws an object. -/
  | throwObject (value : Expr)
  /-- A failure of the host, with a message or without one. -/
  | panic (message : Option String)

/-- What the methods of the basic classes do. -/
inductive Intrinsic where
  /-- Nothing, as the constructors without arguments do. -/
  | nothing
  /-- The receiver's identity. -/
  | identity
  /-- Whether receiver and argument are the same object. -/
  | same
  /-- The number of code units of a string. -/
  | length
  /-- Keeps the argument as the throwable's message. -/
  | setMessage
  /-- The throwable's message. -/
  | message
  /-- Adds the throwable to the diagnostics. -/
  | report
  deriving DecidableEq

end GuestBoundary
