import GuestBoundary.Guest.Bootstrap
import GuestBoundary.Guest.Invocation
import GuestBoundary.Script.NativeSteps

/-!
# Running a script

Commands run in order, and each leaves an entry in the transcript when it ends; native functions
that a script made run their commands in the same way, on the thread and in the environment in which
they are called.  A script ends early if native code breaks the rules of the interface, or if
it asks for what makes no sense.
-/

namespace GuestBoundary.Script

variable {ε : Type}

/-! ## Steps -/

/-- Runs a step. -/
def Step.run (call : Invoker Host) (saveAs : Option String) : Step → Run Report
  | .unread expectation => return .unread expectation
  | .classes s => s.run call saveAs
  | .objects s => s.run call saveAs
  | .invocation s => s.run call saveAs
  | .throwables s => s.run call saveAs
  | .bridge s => s.run call
  | .context s => s.run saveAs

/-- Runs a step; an object that guest code throws is kept and reported. -/
def runStep (call : Invoker Host) (s : Step) (saveAs : Option String) :
    Action Host ε Report := do
  match ← (s.run call saveAs).result with
  | .ok report => return report
  | .error thrown => do
    keepObject saveAs (some thrown)
    Action.read fun w => .thrown ⟨w.describe thrown, w.className thrown⟩

/-! ## Threads -/

/-- Starts a thread and lets the running one wait for it. -/
def startThread (w : State) : State :=
  { w with
    thread := ⟨⟨w.threads⟩, 0, none⟩
    waiting := w.thread :: w.waiting
    threads := w.threads + 1
    host := { w.host with env := none } }

/-- Ends the running thread, whose attachment goes away, and goes on with the one that waited. -/
def endThread (before after : State) : State :=
  World.releaseBridge { after with
    thread := before.thread
    waiting := before.waiting
    host := { after.host with env := before.host.env } }

/-- Runs an action on a thread of its own. -/
def onThread {α : Type} (a : Action Host ε α) : Action Host ε α := fun w =>
  (a.andFinally (endThread w)) (startThread w)

/-! ## Native functions -/

/-- Adds a native function and keeps its address. -/
def addFunction (f : NativeFunction) : Action Host ε Unit := updateHost fun h =>
  let a := h.nextFunction
  { h with functions := (a, f) :: h.functions }.setWord f.name a

/-- What a native function gets for its parameters. -/
def passedArguments (params : List Kind) (slots : List Slot) : List Passed :=
  (params.zip slots).map fun (k, slot) =>
    match k with
    | .primitive p => .value (Value.ofWord p slot)
    | .object => .handle ⟨slot⟩
    | .void => .value .void

/-- Gives a native function its receiver and its arguments in variables. -/
def bindArguments (h : Host) (c : NativeCall) : Host :=
  c.slots.zipIdx.foldl (fun h (slot, i) => h.setWord ("$a" ++ toString i) slot)
    (h.setWord "$this" c.receiver.raw)

/-- The word that a native function answers. -/
def resultOf : ResultTerm → Action Host ε Slot
  | .word t => wordOf t
  | .sum ts => do
    let words ← Action.read fun w => ts.mapM w.host.find?
    return (words.map fun ws => ws.foldl (· + ·) 0).getD 0

/-- Runs the body of a native function that was called. -/
def runFunction (f : NativeFunction) (c : NativeCall) (body : Action Host ε Unit) :
    Action Host ε Slot := do
  let before ← Action.world
  let depth := before.host.nesting + 1
  updateHost fun h => bindArguments h c
  addEntry (.entered depth f.name c.receiver
    (describeOption before resultDepth (before.resolve c.receiver))
    (passedArguments f.signature.params c.slots))
  updateHost fun h => { h with env := some c.env, nesting := depth }
  body.andFinally fun w => { w with
    host := { w.host with env := before.host.env, nesting := before.host.nesting } }
  resultOf f.result

/-! ## Commands -/

mutual

/-- Runs a command. -/
def runCommand (call : Invoker Host) : Command → Action Host ε Unit
  | .onlyIf name c => do
    let w ← wordOf (.variable name)
    if w = 0 then return () else runCommand call c
  | .unless name c => do
    let w ← wordOf (.variable name)
    if w = 0 then runCommand call c else return ()
  | .step s saveAs => do addReport (← runStep call s saveAs)
  | .call function operands saveAs => do addReport (← runCall call function operands saveAs)
  | .onThread commands => do
    onThread (runCommands call commands)
    addReport .joined
  | .native name signature commands result => do
    addFunction ⟨name, signature, commands, result⟩
    addReport .done

/-- Runs commands in order. -/
def runCommands (call : Invoker Host) : List Command → Action Host ε Unit
  | [] => return ()
  | c :: cs => do
    runCommand call c
    runCommands call cs

end

/-- How the native functions of a script run; no other address can be called. -/
def nativeCode : NativeCode Host := fun call c => do
  match ← Action.read fun w => w.host.functions.lookup c.address with
  | some f => runFunction f c (runCommands call f.commands)
  | none => Action.halt .misuse

/-- How deeply calls may be nested, over all threads. -/
def callFuel : Nat := 1000000

/-- How scripts call methods. -/
def invoker : Invoker Host := Guest.invoke nativeCode callFuel

/-! ## Scripts -/

/-- How a run is set up. -/
structure Setup where
  maxCallDepth : Nat
  /-- The configuration of the bridge, if there is one. -/
  config : Option Config
  /-- Whether the first thread is attached. -/
  attached : Bool

/-- The state in which a script starts. -/
def Setup.state (s : Setup) : State :=
  let w := World.start s.maxCallDepth .growing Host.empty
  match s.config with
  | none => w
  | some config =>
    let w := w.install config
    match w.bridge, s.attached with
    | some b, true =>
      let (env, w) := w.attach b
      { w with host := { w.host with env := some env, home := some env } }
    | _, _ => w

/-- How a script ended. -/
inductive Ending where
  | finished
  /-- Native code broke the rules. -/
  | violated (v : ContractViolation)
  /-- The script asked for what makes no sense. -/
  | senseless
  deriving DecidableEq

/-- What came of a script. -/
structure Transcript where
  entries : List LogEntry
  ending : Ending
  /-- How messages write addresses. -/
  host : Host

/-- The transcript of a run that ended in a state. -/
def transcript (w : State) (ending : Ending) : Transcript := ⟨w.host.log.reverse, ending, w.host⟩

/-- Runs a script. -/
def run (s : Setup) (commands : List Command) : Transcript :=
  match (runCommands invoker commands : Action Host Empty Unit) s.state with
  | .ok _ w => transcript w .finished
  | .halt (.violation v) w => transcript w (.violated v)
  | .halt _ w | .panic _ w => transcript w .senseless

end GuestBoundary.Script
