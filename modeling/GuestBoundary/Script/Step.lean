import GuestBoundary.Class.Definition
import GuestBoundary.Interface.Function
import GuestBoundary.Native.Signature
import GuestBoundary.Version

/-!
# Steps of a script

A script drives both sides of the boundary.  Its steps define classes, make objects and call
methods as the embedding program does, call the functions of the interface as native code does, and
make native functions whose bodies are again steps.  A script has variables of three sorts: words,
objects and bindings.
-/

namespace GuestBoundary.Script

/-! ## Terms -/

/-- A word, given or taken from a variable. -/
inductive WordTerm where
  | given (w : UInt64)
  | variable (name : String)

/-- A value: given, an object that a variable holds, or a new string. -/
inductive ValueTerm where
  | given (v : Value)
  | object (name : String)
  | string (units : List Text.Unit16)

/-- A member as the class that it is looked for in, its name and its descriptor. -/
structure MemberName where
  owner : String
  name : String
  descriptor : String

/-- The word that a native function answers. -/
inductive ResultTerm where
  | word (t : WordTerm)
  /-- The sum of several words, wrapping; zero, if one of them was never set. -/
  | sum (terms : List WordTerm)

/-! ## Operands of the interface -/

/-- A method to be bound: its name, its descriptor and the function. -/
structure EntryTerm where
  name : Option (List UInt8)
  descriptor : Option (List UInt8)
  function : WordTerm

/-- One operand of a function of the interface. -/
inductive Operand where
  | handle (t : WordTerm)
  | member (t : WordTerm)
  /-- Bytes, of which those up to the first zero count. -/
  | text (bytes : Option (List UInt8))
  /-- A primitive of a type, from the low bytes of a word. -/
  | primitive (type : Primitive) (t : WordTerm)
  /-- Slots, each with the kind whose bytes of the word it takes. -/
  | arguments (slots : Option (List (Kind × WordTerm)))
  | copyFlag (present : Bool)
  | buffer (t : WordTerm)
  /-- Memory from which so many elements are looked at afterwards. -/
  | target (type : Primitive) (count : Option Nat)
  | source (bytes : Option (List UInt8))
  | natives (entries : Option (List EntryTerm))

/-! ## Steps on the guest side -/

/-- Steps on classes and members. -/
inductive ClassStep where
  | define (spec : ClassSpec)
  | summary (name : String)
  | isSubclass (a b : String)
  | findField (f : MemberName)
  | findMethod (m : MemberName)
  | resolveField (f : MemberName) (isStatic : Bool)
  | resolveMethod (m : MemberName) (isStatic : Bool)
  | selectVirtual (name : String) (m : MemberName)
  | dispatch (name : String) (m : MemberName)
  | sameSignature (a b : MemberName)
  | prepare (name : String)
  | isPrepared (name : String)
  | getStatic (name : String) (f : MemberName)
  | setStatic (name : String) (f : MemberName) (v : ValueTerm)
  | primitiveArray (k : Kind)
  | arrayOf (element : String)
  | describe (name : String)

/-- Steps on objects; objects are named by their variables. -/
inductive ObjectStep where
  | allocate (owner : String)
  | construct (owner descriptor : String) (args : List ValueTerm)
  | string (units : List Text.Unit16)
  | primitiveArray (k : Kind) (length : Int32)
  | objectArray (element : String) (length : Int32) (initial : Option String)
  | getField (object : String) (f : MemberName)
  | setField (object : String) (f : MemberName) (v : ValueTerm)
  | isInstance (object : String) (name : String)
  | inspect (object : String)
  | identity (object : String)
  /-- Whether two objects are the same one, or both null. -/
  | same (a b : Option String)
  | drop (object : String)
  | mirror (name : String)
  | reflectMethod (m : MemberName)
  | reflectField (f : MemberName)

/-- Steps that run guest code. -/
inductive InvocationStep where
  | evaluate (e : Expr)
  | callStatic (m : MemberName) (args : List ValueTerm)
  | callVirtual (m : MemberName) (object : String) (args : List ValueTerm)
  | call (m : MemberName) (object : Option String) (args : List ValueTerm)

/-- Steps on throwables. -/
inductive ThrowableStep where
  | materialize (f : GuestFault)
  | create (owner : String) (message : Option String)
  | message (object : String)
  | describe (object : String)
  | diagnostics
  | maxCallDepth

/-! ## Steps on the native side -/

/-- Steps on the bridge, its attachments and its bindings. -/
inductive BridgeStep where
  | attach
  | detach
  | getEnv (requested : Version)
  /-- Goes back to the environment in which the script started. -/
  | useHome
  | summary
  | drop
  | register (owner name descriptor : String) (function : WordTerm) (saveAs : Option String)
  | addSymbol (symbol : String) (function : WordTerm)
  | unregister (owner : String)
  | bindingOf (m : MemberName)
  | bind (m : MemberName)
  | checkTarget (binding : String) (m : MemberName)
  | loadLibrary (path : String)

/-- Steps on what native code of the running thread holds. -/
inductive ContextStep where
  | newLocal (object : Option String) (saveAs : Option String)
  | resolve (reference : WordTerm)
  | refKind (reference : WordTerm)
  | copyWord (word : WordTerm) (saveAs : String)
  | raise (f : GuestFault)
  | conversion
  | read (buffer : WordTerm) (type : Primitive)
  /-- Writes elements into a buffer from an element on. -/
  | write (buffer : WordTerm) (type : Primitive) (start : Nat) (bytes : List UInt8)

/-- A step that runs no other steps. -/
inductive Step where
  /-- A step that cannot be read, and what was expected of it; nothing happens. -/
  | unread (expectation : String)
  | classes (s : ClassStep)
  | objects (s : ObjectStep)
  | invocation (s : InvocationStep)
  | throwables (s : ThrowableStep)
  | bridge (s : BridgeStep)
  | context (s : ContextStep)

/-- A command of a script. -/
inductive Command where
  /-- Only if a word variable is not zero. -/
  | onlyIf (name : String) (c : Command)
  /-- Only if a word variable is zero. -/
  | unless (name : String) (c : Command)
  /-- A step; an object that it answers or throws is kept in a variable. -/
  | step (s : Step) (saveAs : Option String)
  /-- Calls a function of the interface and keeps its result in a variable. -/
  | call (function : String) (operands : List Operand) (saveAs : Option String)
  /-- Runs commands on a new thread and waits for its end. -/
  | onThread (commands : List Command)
  /-- Makes a native function that runs commands. -/
  | native (name : String) (signature : Signature) (commands : List Command) (result : ResultTerm)

end GuestBoundary.Script
