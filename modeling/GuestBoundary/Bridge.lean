import GuestBoundary.Buffers
import GuestBoundary.Class.Registry
import GuestBoundary.Config
import GuestBoundary.Handle.Globals
import GuestBoundary.Members
import GuestBoundary.Native.Signature
import GuestBoundary.Native.Symbol

/-!
# Bridges

A bridge holds what all threads share on the native side: global references, buffers, numbers for
members, the signatures read so far and which native function each native method is bound to.  A
method is bound when it is registered, or else on its first call to a function whose symbol spells
its name.
-/

namespace GuestBoundary

/-- Under what a native method is bound: the names of its class and of itself, and its
descriptor. -/
structure BindingKey where
  owner : String
  name : String
  descriptor : String
  deriving DecidableEq

/-- The key of a method. -/
def Registry.bindingKey (r : Registry) (m : MethodRef) : BindingKey :=
  ⟨r.nameOf m.owner, (r.method m).name, (r.method m).descriptor⟩

/-- A native method and the function that runs it. -/
structure Binding where
  method : MethodRef
  address : Address
  signature : Signature

/-- What all threads share on the native side. -/
structure Bridge where
  config : Config
  globals : Globals ObjectRef
  buffers : Buffers
  signatures : SignatureCache
  /-- At most one binding for each key, newest first. -/
  bindings : List (BindingKey × Binding)
  /-- Functions by symbol, newest first. -/
  symbols : List (String × Address)
  methods : MemberTable MethodRef
  fields : MemberTable FieldRef

/-- Why a native method is not bound. -/
inductive BindError where
  | noSuchMethod (owner name descriptor : String)
  | notNative (owner name descriptor : String)
  | nullFunction (name descriptor : String)
  /-- A binding that was made for another method. -/
  | doesNotApply (bound called : String)
  /-- No function has one of the method's symbols. -/
  | unsatisfied (method : String) (symbols : List String)
  /-- A library that could not be opened. -/
  | library (path : String)
  | descriptor (cause : DescriptorError)

namespace BindError

def message : BindError → String
  | noSuchMethod owner name type => "no method " ++ owner ++ "." ++ name ++ type
  | notNative owner name type => "method " ++ owner ++ "." ++ name ++ type ++ " is not native"
  | nullFunction name type => "null function pointer for " ++ name ++ type
  | doesNotApply bound called =>
    "native binding for " ++ bound ++ " does not apply to " ++ called
  | unsatisfied method symbols => method ++ " (tried " ++ ", ".intercalate symbols ++ ")"
  | library path => "cannot load native library " ++ path
  | descriptor cause => cause.message

/-- The kind of the fault as which the guest sees the error. -/
def faultKind : BindError → FaultKind
  | .noSuchMethod _ _ _ | .notNative _ _ _ | .descriptor _ => .noSuchMethod
  | .nullFunction _ _ | .doesNotApply _ _ => .illegalArgument
  | .unsatisfied _ _ | .library _ => .unsatisfiedLink

/-- The fault as which the guest sees the error. -/
def toFault (e : BindError) : GuestFault := ⟨e.faultKind, e.message⟩

end BindError

namespace Bridge

/-- A bridge on which nothing has happened yet. -/
def empty (config : Config) : Bridge where
  config
  globals := .empty config.maxGlobals.toNat
  buffers := .empty config.maxBufferBytes.toNat
  signatures := .empty
  bindings := []
  symbols := []
  methods := .empty "method"
  fields := .empty "field"

/-! ## Bindings -/

/-- The binding of a method. -/
def binding? (b : Bridge) (r : Registry) (m : MethodRef) : Option Binding :=
  b.bindings.lookup (r.bindingKey m)

/-- Drops the binding of a method, if it has one. -/
def unbind (b : Bridge) (r : Registry) (m : MethodRef) : Bridge :=
  { b with bindings := b.bindings.filter fun entry => entry.1 != r.bindingKey m }

/-- Binds a method in place of any binding that it has. -/
def bind (b : Bridge) (r : Registry) (m : MethodRef) (address : Address) :
    Except BindError (Binding × Bridge) :=
  match b.signatures.get (r.method m).descriptor with
  | .error cause => .error (.descriptor cause)
  | .ok (signature, signatures) =>
    let binding : Binding := ⟨m, address, signature⟩
    .ok (binding, { b.unbind r m with
      signatures
      bindings := (r.bindingKey m, binding) :: (b.unbind r m).bindings })

/-- Binds the native method of a name and a descriptor that a class declares. -/
def register (b : Bridge) (r : Registry) (c : ClassId) (name descriptor : String)
    (address : Address) : Except BindError (Binding × Bridge) :=
  match r.declaredMethod? c name descriptor with
  | none => .error (.noSuchMethod (r.nameOf c) name descriptor)
  | some m =>
    if !(r.method m).isNative then .error (.notNative (r.nameOf c) name descriptor)
    else if address == 0 then .error (.nullFunction name descriptor)
    -- The descriptor of a method that is there can be read, so it does not end up without a binding.
    else (b.unbind r m).bind r m address

/-- Drops the bindings of the methods that a class declares, and answers how many there were. -/
def unregister (b : Bridge) (r : Registry) (c : ClassId) : Nat × Bridge :=
  let kept := b.bindings.filter fun entry => entry.1.owner != r.nameOf c
  (b.bindings.length - kept.length, { b with bindings := kept })

/-- Enters a function under a symbol. -/
def addSymbol (b : Bridge) (symbol : String) (address : Address) : Bridge :=
  { b with symbols := (symbol, address) :: b.symbols }

/-- The symbols under which a method is looked for, in order. -/
def candidates (r : Registry) (m : MethodRef) : List String :=
  let method := r.method m
  [Symbol.shortName (r.nameOf m.owner) method.name,
    Symbol.longName (r.nameOf m.owner) method.name method.type]

/-- The binding of a method; one that has none is bound to the function of its first symbol. -/
def resolve (b : Bridge) (r : Registry) (m : MethodRef) : Except BindError (Binding × Bridge) :=
  match b.binding? r m with
  | some binding => .ok (binding, b)
  | none =>
    match (candidates r m).findSome? fun symbol => b.symbols.lookup symbol with
    | some address => b.bind r m address
    | none => .error (.unsatisfied (r.describeMethod m) (candidates r m))

end Bridge

/-- Whether a binding was made for a method. -/
def Binding.checkTarget (b : Binding) (r : Registry) (m : MethodRef) : Except BindError Unit :=
  if b.method = m then .ok ()
  else
    let bound := r.method b.method
    .error (.doesNotApply (r.nameOf b.method.owner ++ "." ++ bound.name ++ bound.descriptor)
      (r.describeMethod m))

end GuestBoundary
