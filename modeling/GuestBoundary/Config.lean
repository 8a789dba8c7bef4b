import GuestBoundary.Json
import GuestBoundary.Value.Conversion
import GuestBoundary.Version

/-!
# Configuration

A bridge is set up by six numbers and choices, each with a default.  They are read from a JSON
object, where unknown keys do not count and missing ones take their default, or from an array in
the order of the fields.  A configuration that was read is used only if its ranges make sense.
-/

namespace GuestBoundary

/-- How a bridge behaves. -/
structure Config where
  /-- What becomes of a primitive of the wrong kind. -/
  conversion : ConversionMode
  /-- Slots for local references per thread. -/
  maxLocals : UInt64
  /-- Global references of both sorts. -/
  maxGlobals : UInt64
  /-- Bytes of buffers that may be out at a time. -/
  maxBufferBytes : UInt64
  /-- The language level of the guest. -/
  languageLevel : UInt32
  /-- Whether a native function is kept from running for a method that it is not bound to. -/
  checkCallTarget : Bool
  deriving DecidableEq

namespace Config

def default : Config where
  conversion := .compatibility
  maxLocals := 4096
  maxGlobals := 65536
  maxBufferBytes := 268435456
  languageLevel := 21
  checkCallTarget := true

/-- The interface version that the bridge reports. -/
def version (c : Config) : Version := Version.ofLanguageLevel c.languageLevel.toNat

/-- What is wrong with the ranges of a configuration. -/
def problem? (c : Config) : Option String :=
  if c.maxGlobals = 0 then some "max_globals must be positive"
  else if c.languageLevel = 0 then some "language_level must be positive"
  else none

/-! ## Fields -/

/-- The fields in their order. -/
inductive Key where
  | conversion
  | maxLocals
  | maxGlobals
  | maxBufferBytes
  | languageLevel
  | checkCallTarget
  deriving DecidableEq

namespace Key

def all : List Key :=
  [conversion, maxLocals, maxGlobals, maxBufferBytes, languageLevel, checkCallTarget]

def text : Key → String
  | conversion => "conversion_mode"
  | maxLocals => "max_locals"
  | maxGlobals => "max_globals"
  | maxBufferBytes => "max_buffer_bytes"
  | languageLevel => "language_level"
  | checkCallTarget => "check_call_target"

def ofText? (s : String) : Option Key := all.find? fun k => k.text == s

end Key

def modeText : ConversionMode → String
  | .strict => "strict"
  | .compatibility => "compatibility"

def modeOfText? (s : String) : Option ConversionMode :=
  [ConversionMode.strict, .compatibility].find? fun m => modeText m == s

/-- A mode is its name, or an object that maps its name to null. -/
def modeOfJson? : Json → Option ConversionMode
  | .string us => (Json.textOfUnits? us).bind modeOfText?
  | .object [(key, .null)] => (Json.textOfUnits? key).bind modeOfText?
  | _ => none

/-- A number below `bound`, written plainly. -/
def naturalOfJson? (bound : Nat) : Json → Option Nat
  | .number n => n.natural?.bind fun n => if n < bound then some n else none
  | _ => none

def wordOfJson? (j : Json) : Option UInt64 := (naturalOfJson? UInt64.size j).map UInt64.ofNat

/-- Puts a value into a field. -/
def set? (c : Config) (key : Key) (value : Json) : Option Config :=
  match key with
  | .conversion => (modeOfJson? value).map fun m => { c with conversion := m }
  | .maxLocals => (wordOfJson? value).map fun n => { c with maxLocals := n }
  | .maxGlobals => (wordOfJson? value).map fun n => { c with maxGlobals := n }
  | .maxBufferBytes => (wordOfJson? value).map fun n => { c with maxBufferBytes := n }
  | .languageLevel =>
    (naturalOfJson? UInt32.size value).map fun n => { c with languageLevel := UInt32.ofNat n }
  | .checkCallTarget =>
    match value with
    | .boolean b => some { c with checkCallTarget := b }
    | _ => none

/-- Puts the members of an object into their fields; `seen` are the fields that have a value
already, and no field gets two. -/
def setMembers? (c : Config) (seen : List Key) :
    List (List Text.Unit16 × Json) → Option Config
  | [] => some c
  | (units, value) :: members => do
    let name ← Json.textOfUnits? units
    match Key.ofText? name with
    | none => setMembers? c seen members
    | some key =>
      if seen.contains key then none
      else do
        let c ← c.set? key value
        setMembers? c (key :: seen) members

/-- Puts the items of an array into the fields in order. -/
def setItems? (c : Config) : List Key → List Json → Option Config
  | _, [] => some c
  | [], _ :: _ => none
  | key :: keys, item :: items => do
    let c ← c.set? key item
    setItems? c keys items

/-- The configuration that a JSON value describes. -/
def ofJson? : Json → Option Config
  | .object members => default.setMembers? [] members
  | .array items => default.setItems? Key.all items
  | _ => none

/-- The value of a field. -/
def get (c : Config) : Key → Json
  | .conversion => Json.ofText (modeText c.conversion)
  | .maxLocals => Json.ofNat c.maxLocals.toNat
  | .maxGlobals => Json.ofNat c.maxGlobals.toNat
  | .maxBufferBytes => Json.ofNat c.maxBufferBytes.toNat
  | .languageLevel => Json.ofNat c.languageLevel.toNat
  | .checkCallTarget => .boolean c.checkCallTarget

/-- Every field of a configuration, in order. -/
def toJson (c : Config) : Json :=
  .object (Key.all.map fun key => (Text.units key.text, c.get key))

/-! ## Texts -/

/-- Why a text gives no configuration. -/
inductive Error where
  /-- The text is no description of a configuration. -/
  | malformed
  /-- A range makes no sense. -/
  | invalid (problem : String)
  deriving DecidableEq

/-- What a reader is told about a range. -/
def invalidMessage (problem : String) : String := "invalid bridge configuration: " ++ problem

/-- The configuration, unless its ranges make no sense. -/
def validate (c : Config) : Except Error Config :=
  match c.problem? with
  | some problem => .error (.invalid problem)
  | none => .ok c

/-- The configuration that a text describes. -/
def read (text : String) : Except Error Config :=
  match (Json.parse? text).bind ofJson? with
  | none => .error .malformed
  | some c => c.validate

/-- A configuration as text. -/
def write (c : Config) : String := c.toJson.pretty

end Config

end GuestBoundary
