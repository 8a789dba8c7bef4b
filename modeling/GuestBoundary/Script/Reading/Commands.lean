import GuestBoundary.Script.Reading.Code
import GuestBoundary.Script.Run

/-!
# Reading scripts

A command is an object: `call` names a function of the interface, `do` a step; what either needs
is in further members, `as` names the variable that keeps its result, and `if` and `unless` name a
variable on which the command depends.
-/

namespace GuestBoundary.Script.Reading

/-! ## Members of a command -/

/-- The text of a member. -/
def textAt? (j : Json) (key : String) : Option String := (j.member key).text?

/-- The member that `class`, `name` and `desc` name. -/
def ownMember? (j : Json) : Option MemberName := do
  return ⟨← textAt? j "class", ← textAt? j "name", ← textAt? j "desc"⟩

def methodAt? (j : Json) : Option MemberName := member? (j.member "method")

def fieldAt? (j : Json) : Option MemberName := member? (j.member "field")

def valueAt? (j : Json) : Option ValueTerm := value? (j.member "value")

def argsAt? (j : Json) : Option (List ValueTerm) := optionalList? value? (j.member "args")

def lengthAt? (j : Json) : Option Int32 := (j.member "len").int?.map Int32.ofInt

def faultAt? (j : Json) : Option GuestFault := fault? (j.member "kind") (j.member "message")

/-- The type of the elements of a buffer: bytes that are truth values, if nothing is said. -/
def elementTypeAt? (j : Json) : Option Primitive :=
  if (j.member "kind").isNull then some .boolean
  else
    match kind? (j.member "kind") with
    | some (.primitive p) => some p
    | _ => none

/-! ## Steps -/

def classStep? (j : Json) : String → Option ClassStep
  | "define" => (classSpec? (j.member "class")).map ClassStep.define
  | "class" => (textAt? j "name").map ClassStep.summary
  | "subclass" => do return .isSubclass (← textAt? j "a") (← textAt? j "b")
  | "find_field" => (ownMember? j).map ClassStep.findField
  | "find_method" => (ownMember? j).map ClassStep.findMethod
  | "resolve_field" => do return .resolveField (← ownMember? j) (switch (j.member "static"))
  | "resolve_method" => do return .resolveMethod (← ownMember? j) (switch (j.member "static"))
  | "select_virtual" => do return .selectVirtual (← textAt? j "class") (← methodAt? j)
  | "vtable_lookup" => do return .dispatch (← textAt? j "class") (← methodAt? j)
  | "same_signature" => do
    return .sameSignature (← member? (j.member "a")) (← member? (j.member "b"))
  | "initialize" => (textAt? j "class").map ClassStep.prepare
  | "is_initialized" => (textAt? j "class").map ClassStep.isPrepared
  | "get_static" => do return .getStatic (← textAt? j "class") (← fieldAt? j)
  | "set_static" => do return .setStatic (← textAt? j "class") (← fieldAt? j) (← valueAt? j)
  | "array_class" =>
    if (j.member "kind").isNull then (textAt? j "element").map ClassStep.arrayOf
    else (kind? (j.member "kind")).map ClassStep.primitiveArray
  | "class_debug" => (textAt? j "class").map ClassStep.describe
  | _ => none

def objectStep? (j : Json) : String → Option ObjectStep
  | "alloc" => (textAt? j "class").map ObjectStep.allocate
  | "construct" => do return .construct (← textAt? j "class") (← textAt? j "desc") (← argsAt? j)
  | "string" => (units? (j.member "units")).map ObjectStep.string
  | "prim_array" => do return .primitiveArray (← kind? (j.member "kind")) (← lengthAt? j)
  | "object_array" => do
    return .objectArray (← textAt? j "class") (← lengthAt? j) (textAt? j "init")
  | "get_field" => do return .getField (← textAt? j "obj") (← fieldAt? j)
  | "set_field" => do return .setField (← textAt? j "obj") (← fieldAt? j) (← valueAt? j)
  | "instance_of" => do return .isInstance (← textAt? j "obj") (← textAt? j "class")
  | "show" => (textAt? j "obj").map ObjectStep.inspect
  | "identity" => (textAt? j "obj").map ObjectStep.identity
  | "same" => some (.same (textAt? j "a") (textAt? j "b"))
  | "drop" => (textAt? j "obj").map ObjectStep.drop
  | "mirror" => (textAt? j "class").map ObjectStep.mirror
  | "reflect_method" => (methodAt? j).map ObjectStep.reflectMethod
  | "reflect_field" => (fieldAt? j).map ObjectStep.reflectField
  | _ => none

def invocationStep? (j : Json) : String → Option InvocationStep
  | "eval" => (expr? (j.member "expr")).map InvocationStep.evaluate
  | "invoke_static" => do return .callStatic (← ownMember? j) (← argsAt? j)
  | "invoke_virtual" => do return .callVirtual (← methodAt? j) (← textAt? j "obj") (← argsAt? j)
  | "invoke" => do return .call (← methodAt? j) (textAt? j "obj") (← argsAt? j)
  | _ => none

def throwableStep? (j : Json) : String → Option ThrowableStep
  | "materialize" => (faultAt? j).map ThrowableStep.materialize
  | "new_throwable" => do
    return .create (← textAt? j "class") (← nullable Json.text? (j.member "message"))
  | "detail_message" => (textAt? j "obj").map ThrowableStep.message
  | "describe" => (textAt? j "obj").map ThrowableStep.describe
  | "diagnostics" => some .diagnostics
  | "vm_config" => some .maxCallDepth
  | _ => none

def bridgeStep? (j : Json) : String → Option BridgeStep
  | "attach" => some .attach
  | "detach" => some .detach
  | "get_env" => (int32? (j.member "version")).map fun code => BridgeStep.getEnv ⟨code⟩
  | "use_home_env" => some .useHome
  | "bridge_info" => some .summary
  | "drop_bridge" => some .drop
  | "register_native" => do
    let m ← ownMember? j
    return .register m.owner m.name m.descriptor (← reference? (j.member "fn")) (textAt? j "as")
  | "register_symbol" => do
    return .addSymbol (← textAt? j "symbol") (.variable (← variableName? '$' (j.member "fn")))
  | "unregister" => (textAt? j "class").map BridgeStep.unregister
  | "binding_for" => (methodAt? j).map BridgeStep.bindingOf
  | "binder_resolve" => (methodAt? j).map BridgeStep.bind
  | "check_target" => do return .checkTarget (← textAt? j "binding") (← methodAt? j)
  | "load_missing_library" => some (.loadLibrary "missing")
  | _ => none

def contextStep? (j : Json) : String → Option ContextStep
  | "to_local" => some (.newLocal (textAt? j "obj") (textAt? j "as"))
  | "resolve" => (reference? (j.member "ref")).map ContextStep.resolve
  | "ref_kind" => (reference? (j.member "ref")).map ContextStep.refKind
  | "alias" => do return .copyWord (← reference? (j.member "ref")) (← textAt? j "as")
  | "raise" => (faultAt? j).map ContextStep.raise
  | "policy" => some .conversion
  | "peek" => do return .read (← reference? (j.member "buf")) (← elementTypeAt? j)
  | "poke" => do
    let type ← elementTypeAt? j
    return .write (← reference? (j.member "buf")) type ((nat? (j.member "at")).getD 0)
      (← elements? type (j.member "values"))
  | _ => none

/-- The members of a step that must be texts, where their absence is reported and ends nothing. -/
def textMembers : String → List String
  | "register_symbol" => ["symbol", "fn"]
  | _ => []

/-- A step without a text that it needs. -/
def unread? (j : Json) (name : String) : Option Step :=
  if (textMembers name).any fun key => (j.member key).isNull then
    some (.unread "string expected, got null")
  else none

/-- A step by its name. -/
def step? (j : Json) (name : String) : Option Step :=
  (classStep? j name).map Step.classes <|> (objectStep? j name).map Step.objects <|>
    (invocationStep? j name).map Step.invocation <|>
    (throwableStep? j name).map Step.throwables <|> (bridgeStep? j name).map Step.bridge <|>
    (contextStep? j name).map Step.context <|> unread? j name

/-! ## Commands -/

/-- A call of a function of the interface; a name that no function has takes no operands. -/
def call? (j : Json) (name : String) : Option Command := do
  let params := ((Interface.Function.ofName? name).map Interface.Function.params).getD []
  let args ← optionalList? some (j.member "args")
  return .call name (← operands? params args) (textAt? j "as")

/-- A command without its condition; `read` reads the commands inside. -/
def body? (read : Json → Option Command) (j : Json) : Option Command := do
  match textAt? j "call" with
  | some name => call? j name
  | none =>
    match ← textAt? j "do" with
    | "on_thread" => (optionalList? read (j.member "steps")).map Command.onThread
    | "native" => do
      let signature ← (Signature.parse (← textAt? j "sig")).toOption
      return .native (← textAt? j "as") signature (← optionalList? read (j.member "steps"))
        (← result? signature.result (j.member "ret"))
    | name => do return .step (← step? j name) (variableName? '@' (j.member "as"))

/-- Puts a command under its conditions. -/
def conditional (j : Json) (c : Command) : Command :=
  let c := ((textAt? j "if").map fun name => Command.onlyIf name c).getD c
  ((textAt? j "unless").map fun name => Command.unless name c).getD c

/-- A command that is nested at most `depth` deep. -/
def commandWithin? : Nat → Json → Option Command
  | 0, _ => none
  | depth + 1, j => (body? (commandWithin? depth) j).map (conditional j)

/-- A command. -/
def command? (j : Json) : Option Command := commandWithin? j.depth j

/-! ## Scripts -/

/-- The configuration of the bridge; the default one, if nothing is said. -/
def config (j : Json) : Except Config.Error Config :=
  if j.isNull then .ok .default
  else
    match Config.ofJson? j with
    | some c => c.validate
    | none => .error .malformed

/-- How a run is set up. -/
def setup (j : Json) : Except Config.Error Setup := do
  let depth := (nat? (j.member "max_call_depth")).getD World.defaultCallDepth
  if (j.member "bridge").boolean?.getD true then
    let config ← config (j.member "config")
    return ⟨depth, some config, (j.member "attach").boolean?.getD true⟩
  else return ⟨depth, none, false⟩

/-- The commands of a script. -/
def commands? (j : Json) : Option (List Command) := list? command? (j.member "steps")

end GuestBoundary.Script.Reading
