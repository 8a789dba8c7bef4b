import GuestBoundary.Action
import GuestBoundary.Script.Report
import GuestBoundary.Script.Step

/-!
# The host of a script

What a script adds to the state of a run: its variables, the native functions that it made, and the
transcript so far.  Objects that the script holds are kept in the state itself, under their names.
-/

namespace GuestBoundary.Script

/-- A native function that a script made. -/
structure NativeFunction where
  name : String
  signature : Signature
  commands : List Command
  result : ResultTerm

/-- What a script adds to the state. -/
structure Host where
  words : List (String × UInt64)
  bindings : List (String × Binding)
  functions : List (Address × NativeFunction)
  /-- The transcript, latest entry first. -/
  log : List LogEntry
  /-- The environment that native code passes. -/
  env : Option Env
  /-- The environment in which the script started. -/
  home : Option Env
  /-- The native functions in progress, on the running thread and on those that wait for it. -/
  nesting : Nat
  /-- The names of the buffers that were returned, latest first. -/
  labels : List (Address × String)

namespace Host

def empty : Host := ⟨[], [], [], [], none, none, 0, []⟩

/-- The word of a variable; one that was never set is zero. -/
def word (h : Host) (name : String) : UInt64 := (h.words.lookup name).getD 0

/-- The word that a term stands for, unless it names a variable that was never set. -/
def find? (h : Host) : WordTerm → Option UInt64
  | .given w => some w
  | .variable name => h.words.lookup name

def setWord (h : Host) (name : String) (w : UInt64) : Host :=
  { h with words := (name, w) :: h.words.filter fun e => e.1 != name }

def setBinding (h : Host) (name : String) (b : Binding) : Host :=
  { h with bindings := (name, b) :: h.bindings.filter fun e => e.1 != name }

/-- The address of the next native function. -/
def nextFunction (h : Host) : Address := UInt64.ofNat (0x400000 + 16 * h.functions.length)

/-- Names a buffer that was returned; null has no name. -/
def labelBuffer (h : Host) (a : Address) : Option String × Host :=
  if a == 0 then (none, h)
  else
    let label := "buf" ++ toString h.labels.length
    (some label, { h with labels := (a, label) :: h.labels })

/-- How messages write an address: by its name, if it has one. -/
def writeAddress (h : Host) (a : Address) : String :=
  (h.labels.lookup a).getD (Text.address a.toNat)

end Host

/-- The state of a run with a script. -/
abbrev State := World Host

variable {ε α : Type}

/-! ## Reading and writing variables -/

def updateHost (f : Host → Host) : Action Host ε Unit :=
  Action.update fun w => { w with host := f w.host }

/-- The word that a term stands for. -/
def wordOf : WordTerm → Action Host ε UInt64
  | .given w => pure w
  | .variable name => Action.read fun w => w.host.word name

/-- Keeps a word in a variable, if one is named. -/
def keepWord (saveAs : Option String) (w : UInt64) : Action Host ε Unit :=
  match saveAs with
  | some name => updateHost fun h => h.setWord name w
  | none => pure ()

/-- Keeps an object in a variable, if one is named. -/
def keepObject (saveAs : Option String) (o : Option ObjectRef) : Action Host ε Unit :=
  match saveAs with
  | some name => Action.update fun w => w.hold name o
  | none => pure ()

/-- The object that a variable holds, or null; a variable that was never set holds null. -/
def objectOrNull (name : Option String) : Action Host ε (Option ObjectRef) :=
  Action.read fun w => name.bind fun name => (w.named.lookup name).join

/-- The object that a variable holds. -/
def objectNamed (name : String) : Action Host ε ObjectRef := do
  match ← objectOrNull (some name) with
  | some o => return o
  | none => Action.halt .misuse

/-- The value that a term stands for. -/
def valueOf : ValueTerm → Action Host ε Value
  | .given v => pure v
  | .object name => do
    let o ← objectOrNull (some name)
    return .reference o
  | .string units => do
    let o ← Action.step fun w => w.newString units
    return .ofObject o

/-- The values that terms stand for. -/
def valuesOf (ts : List ValueTerm) : Action Host ε (List Value) := ts.mapM valueOf

/-! ## What a step answers -/

/-- Answers an object and keeps it. -/
def answerObject (saveAs : Option String) (o : Option ObjectRef) : Action Host ε Report := do
  keepObject saveAs o
  Action.read fun w => .value (describeOption w resultDepth o)

/-- Answers a value and keeps its object. -/
def answerValue (saveAs : Option String) (v : Value) : Action Host ε Report := do
  keepObject saveAs v.object?
  Action.read fun w => .value (describeValue w resultDepth v)

/-- Answers a value, if there is one. -/
def answerValueOrNothing (saveAs : Option String) : Option Value → Action Host ε Report
  | some v => answerValue saveAs v
  | none => pure .nothing

/-- What the running thread has in use, while it is attached and the script holds the bridge. -/
def usage? (w : State) : Option Usage :=
  match w.bridge, w.attachment with
  | some b, some a =>
    if w.bridgeHeld then
      some ⟨a.locals.depth, a.locals.live, b.globals.live, b.buffers.blocks.length,
        b.buffers.inUse⟩
    else none
  | _, _ => none

/-- Adds an entry to the transcript. -/
def addEntry (e : LogEntry) : Action Host ε Unit := updateHost fun h => { h with log := e :: h.log }

/-- Adds the entry of a step that ended, and empties the trace. -/
def addReport (r : Report) : Action Host ε Unit := do
  let w ← Action.world
  addEntry (.ended w.host.nesting r (w.pending.map w.describe) (usage? w) w.trace)
  Action.update fun w => { w with trace := [] }

end GuestBoundary.Script
