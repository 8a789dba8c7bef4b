import GuestBoundary.Interface.Function
import GuestBoundary.Script.Run
import GuestBoundary.Script.Writing.Values

/-!
# Writing transcripts

A transcript is a list with one object per entry: `r` is what the step came to, `d` how deeply native
functions are nested, `x` the pending throwable, `s` what is in use and `t` what was traced; a member
that has nothing to say is left out.  A script that broke the rules ends with `fatal`.
-/

namespace GuestBoundary.Script.Writing

/-! ## Errors -/

def descriptorError (e : DescriptorError) : Json :=
  let name :=
    match e with
    | .empty => "Empty"
    | .unexpectedChar _ _ _ => "UnexpectedChar"
    | .unterminatedClass _ => "UnterminatedClass"
    | .misplacedVoid _ => "MisplacedVoid"
    | .missingParameters _ => "MissingParameters"
    | .trailingInput _ => "TrailingInput"
  failure name e.message

def allocError (e : AllocError) : Json :=
  let name :=
    match e with
    | .localLimit _ => "LocalLimit"
    | .globalLimit _ => "GlobalLimit"
    | .bufferLimit _ _ _ => "BufferLimit"
    | .outOfMemory _ => "OutOfMemory"
  failure name e.message

/-- Transcripts do not tell threads apart. -/
def hiddenThread (_ : ThreadId) : String := "ThreadId(?)"

/-- A violation on one line, where `label` writes addresses. -/
def violationText (label : Address → String) (v : ContractViolation) : String :=
  v.messageWith label hiddenThread

def violation (label : Address → String) (v : ContractViolation) : Json :=
  let name :=
    match v with
    | .unknownBuffer _ => "UnknownBuffer"
    | .doubleRelease _ => "DoubleRelease"
    | .invalidHandle _ _ => "InvalidHandle"
    | .unbalancedFrame => "UnbalancedFrame"
    | .invalidMemberId _ _ => "InvalidMemberId"
    | .missingEnvironment | .foreignEnvironment _ _ => "InvalidEnvironment"
    | .requested _ => "Requested"
  failure name (violationText label v)

def defineError (e : DefineError) : Json :=
  let named (name : String) (more : List (String × Json)) : Json :=
    .record ([("error", .ofText name), ("message", .ofText e.message)] ++ more)
  match e with
  | .descriptor cause => named "Descriptor" [("inner", descriptorError cause)]
  | .unknownClass _ => named "UnknownClass" []
  | .duplicate _ => named "Duplicate" []
  | .duplicateMember _ => named "DuplicateMember" []

/-- Why a method is not bound.  What is wrong with a library depends on the host and is left out. -/
def bindError (e : BindError) : Json :=
  let fault := ("guest_kind", Json.ofText e.faultKind.className)
  let named (name : String) : Json :=
    .record [("error", .ofText name), ("message", .ofText e.message), fault]
  match e with
  | .noSuchMethod _ _ _ => named "NoSuchMethod"
  | .notNative _ _ _ => named "NotNative"
  | .nullFunction _ _ => named "NullFunction"
  | .doesNotApply _ _ => named "DoesNotApply"
  | .unsatisfied _ _ => named "Unsatisfied"
  | .library _ => .record [("error", .ofText "Library"), fault]
  | .descriptor _ => named "Descriptor"

def configError : Config.Error → Json
  | .malformed => .record [("error", .ofText "Parse")]
  | .invalid problem => failure "Invalid" (Config.invalidMessage problem)

/-! ## Summaries -/

def fieldSummary (s : FieldSummary) : Json :=
  .record [("field", .ofText s.field.describe), ("name", .ofText s.field.name),
    ("desc", .ofText s.field.type.text), ("kind", .ofText s.field.kind.name),
    ("static", .boolean s.field.isStatic), ("slot", .ofNat s.field.slot),
    ("declaring", .ofText s.owner)]

def methodSummary (s : MethodSummary) : Json :=
  .record [("method", .ofText s.description), ("name", .ofText s.method.name),
    ("desc", .ofText s.method.descriptor), ("static", .boolean s.method.isStatic),
    ("native", .boolean s.method.isNative), ("abstract", .boolean s.method.isAbstract),
    ("constructor", .boolean s.method.isConstructor),
    ("vtable", ofOption Json.ofNat s.method.vtableIndex), ("declaring", .ofText s.owner)]

def sortName : ClassSort → String
  | .concrete => "concrete"
  | .abstract => "abstract"
  | .interface => "interface"
  | .array _ => "array"

def classSummary (s : ClassSummary) : Json :=
  .record [("name", .ofText s.self.name), ("dotted", .ofText s.self.dottedName),
    ("kind", .ofText (sortName s.self.sort)), ("super", ofOption Json.ofText s.superclass),
    ("interfaces", ofTexts s.interfaces), ("component", ofOption Json.ofText s.component),
    ("fields", .array (s.fields.map fieldSummary)),
    ("methods", .array (s.methods.map methodSummary)),
    ("layout", ofTexts (s.self.layout.map Kind.name)), ("vtable", ofTexts s.vtable),
    ("initialized", .boolean s.isInitialized), ("instantiable", .boolean s.self.isInstantiable),
    ("is_interface", .boolean s.self.isInterface), ("is_array", .boolean s.self.isArray)]

def inspection (i : Inspection) : Json :=
  .record [("desc", description i.description), ("text", ofOption Json.ofText i.text),
    ("units", ofOption ofUnits i.units), ("array_len", ofOption Json.ofNat i.arrayLength),
    ("mirror", ofOption Json.ofText i.mirrored), ("member", ofOption Json.ofText i.member)]

def thrownSummary (t : ThrownSummary) : Json :=
  .record [("thrown", .ofText t.description), ("class", .ofText t.className),
    ("debug", .ofText ("Thrown(" ++ t.className ++ ")"))]

def bindingSummary (s : BindingSummary) : Json :=
  .record [("method", .ofText s.method), ("abi", .ofText s.signature.abi),
    ("signature", .ofText s.signature.descriptor), ("nonzero", .boolean s.hasFunction)]

def configSummary (c : Config) : Json :=
  .record [("conversion_mode", .ofText c.conversion.name),
    ("max_locals", .ofText (toString c.maxLocals)),
    ("max_globals", .ofText (toString c.maxGlobals)),
    ("max_buffer_bytes", .ofText (toString c.maxBufferBytes)),
    ("language_level", .ofNat c.languageLevel.toNat),
    ("check_call_target", .boolean c.checkCallTarget),
    ("interface_version", .ofInt c.version.code.toInt)]

def bridgeSummary (s : BridgeSummary) : Json :=
  .record [("version", .ofInt s.config.version.code.toInt), ("config", configSummary s.config),
    ("signatures", .ofNat s.signatures), ("bindings", .ofNat s.bindings),
    ("table_len", .ofNat Interface.table.length),
    ("reserved_zero", .boolean ((Interface.table.take Interface.reservedSlots).all Option.isNone)),
    ("complete", .boolean ((Interface.table.drop Interface.reservedSlots).all Option.isSome)),
    ("globals_limit", .ofNat s.globalsLimit), ("find_object", .boolean s.findsRoot)]

/-! ## Calls of the interface -/

def handle (h : Handle) : Json := .ofText h.describe

/-- What a function returned. -/
def returned (c : CallReport) : Json :=
  match c.returned with
  | .nothing => .null
  | .handle h => handle h
  | .member id => .ofNat id.toNat
  | .primitive v => nativePayload v
  | .buffer _ => ofOption Json.ofText c.label
  | .refKind k => .ofNat k.code

/-- A member that is left out if there is nothing to say. -/
def optionalMember {α : Type} (key : String) (write : α → Json) :
    Option α → List (String × Json)
  | some a => [(key, write a)]
  | none => []

/-- The object for which a returned handle stands. -/
def returnedObject? (c : CallReport) : Option Description :=
  match c.returned with
  | .handle _ => some c.object
  | _ => none

def callMembers (c : CallReport) : List (String × Json) :=
  ("r", returned c) :: optionalMember "o" description (returnedObject? c) ++
    optionalMember "flag" (fun b : UInt8 => .ofNat b.toNat) c.flag ++
    optionalMember "out" (fun w : Primitive × List UInt8 => elements w.1 w.2) c.written

/-! ## Entries -/

/-- The members that say what was expected of a step. -/
def unreadMembers (expectation : String) : List (String × Json) :=
  [("error", .ofText "BadInput"), ("message", .ofText expectation)]

/-- What a step came to; a call is written as several members instead. -/
def report (label : Address → String) : Report → Json
  | .unread expectation => .record (unreadMembers expectation)
  | .done => .ofText "ok"
  | .nothing => .null
  | .truth b => .boolean b
  | .number n => .ofInt n
  | .text s => .ofText s
  | .texts ss => ofTexts ss
  | .value d => value d
  | .object d => description d
  | .handle h => handle h
  | .refKind k => .ofText k.name
  | .field s => fieldSummary s
  | .method s => methodSummary s
  | .classSummary s => classSummary s
  | .inspection i => inspection i
  | .identity n object value =>
    .record [("identity", .ofNat n), ("object", .ofText object), ("value", .ofText value)]
  | .thrown t => thrownSummary t
  | .undefined e => defineError e
  | .unallocated e => allocError e
  | .violation v => violation label v
  | .binding s => bindingSummary s
  | .unbound e => bindError e
  | .bridge s => bridgeSummary s
  | .attached same => .ofText (if same then "same" else "new")
  | .environment => .ofText "env"
  | .status s => .ofInt s.code.toInt
  | .conversion m => .ofText m.name
  | .elements p bytes => elements p bytes
  | .called c => returned c
  | .joined => .ofText "joined"

/-- The members that say what a step came to. -/
def reportMembers (label : Address → String) : Report → List (String × Json)
  | .unread expectation => unreadMembers expectation
  | .called c => callMembers c
  | r => [("r", report label r)]

def usage (u : Usage) : Json :=
  .array ([u.frames, u.locals, u.globals, u.buffers, u.bytes].map Json.ofNat)

def passed : Passed → Json
  | .value v => nativePayload v
  | .handle h => handle h

/-- How deeply native functions are nested, if they are. -/
def nested? (depth : Nat) : Option Nat := if depth = 0 then none else some depth

/-- The lines of a trace, if there are any. -/
def traced? (trace : List String) : Option (List String) :=
  if trace.isEmpty then none else some trace

def entry (label : Address → String) : LogEntry → Json
  | .ended depth r pending inUse trace =>
    .record (reportMembers label r ++ optionalMember "d" Json.ofNat (nested? depth) ++
      optionalMember "x" Json.ofText pending ++ optionalMember "s" usage inUse ++
      optionalMember "t" ofTexts (traced? trace))
  | .entered depth function receiver object args =>
    .record ([("native", .ofText function), ("this", handle receiver),
      ("thisobj", description object), ("args", .array (args.map passed))] ++
      optionalMember "d" Json.ofNat (nested? depth))

/-- A transcript; there is none of a script that made no sense. -/
def transcript? (t : Transcript) : Option Json :=
  let label := t.host.writeAddress
  let entries := t.entries.map (entry label)
  match t.ending with
  | .finished => some (.array entries)
  | .violated v =>
    some (.array (entries ++ [.record [("fatal", .ofText (violationText label v))]]))
  | .senseless => none

end GuestBoundary.Script.Writing
