import GuestBoundary.World

/-!
# Actions

What guest code, native code and the functions between them do is an action: it starts from a state
and comes to an outcome.  It answers a value, fails with an error that its caller may handle, or
panics, which callers cannot handle except where native code enters; in all three cases it leaves a
state behind.  Or it halts, and then the whole run is over.
-/

namespace GuestBoundary

/-- What a thread may wait for while another one has it. -/
inductive Awaited where
  | monitor (o : ObjectRef)
  /-- The end of the initialization of a class. -/
  | initialization (c : ClassId)
  deriving DecidableEq

/-- Why a run is over before its end. -/
inductive Halt where
  /-- Native code broke the rules. -/
  | violation (v : ContractViolation)
  /-- The only thread that runs waits for what another one has, which waits for it. -/
  | deadlock (on : Awaited)
  /-- Calls were nested more deeply than the run was made for. -/
  | outOfFuel
  /-- The embedding program asked for something that makes no sense. -/
  | misuse
  deriving DecidableEq

/-- What an action comes to. -/
inductive Outcome (H ε α : Type) where
  | ok (value : α) (w : World H)
  | error (e : ε) (w : World H)
  | panic (message : Option String) (w : World H)
  | halt (reason : Halt) (w : World H)

/-- An action that answers an `α` or fails with an `ε`. -/
def Action (H ε α : Type) : Type := World H → Outcome H ε α

namespace Action

variable {H ε δ α β : Type}

/-- Runs an action. -/
def run (a : Action H ε α) (w : World H) : Outcome H ε α := a w

/-- Answers a value. -/
def answer (a : α) : Action H ε α := fun w => .ok a w

/-- Goes on with what the first action answers. -/
def andThen (a : Action H ε α) (f : α → Action H ε β) : Action H ε β := fun w =>
  match a w with
  | .ok x w => f x w
  | .error e w => .error e w
  | .panic message w => .panic message w
  | .halt reason w => .halt reason w

instance : Monad (Action H ε) where
  pure := answer
  bind := andThen

/-- Fails. -/
def fail (e : ε) : Action H ε α := fun w => .error e w

def panic (message : Option String) : Action H ε α := fun w => .panic message w

def halt (reason : Halt) : Action H ε α := fun w => .halt reason w

/-- The state. -/
def world : Action H ε (World H) := fun w => .ok w w

/-- Looks at the state. -/
def read (f : World H → α) : Action H ε α := fun w => .ok (f w) w

/-- Changes the state. -/
def update (f : World H → World H) : Action H ε Unit := fun w => .ok () (f w)

/-- Changes the state and answers a value. -/
def step (f : World H → α × World H) : Action H ε α := fun w =>
  let (a, w) := f w
  .ok a w

/-- Answers a value or fails, as told. -/
def ofExcept : Except ε α → Action H ε α
  | .ok a => answer a
  | .error e => fail e

/-- Renames the error. -/
def mapError (f : ε → δ) (a : Action H ε α) : Action H δ α := fun w =>
  match a w with
  | .ok x w => .ok x w
  | .error e w => .error (f e) w
  | .panic message w => .panic message w
  | .halt reason w => .halt reason w

/-- Answers how the action ended, if it answered or failed. -/
def result (a : Action H ε α) : Action H δ (Except ε α) := fun w =>
  match a w with
  | .ok x w => .ok (.ok x) w
  | .error e w => .ok (.error e) w
  | .panic message w => .panic message w
  | .halt reason w => .halt reason w

/-- Changes the state after the action, however it ended. -/
def andFinally (a : Action H ε α) (f : World H → World H) : Action H ε α := fun w =>
  match a w with
  | .ok x w => .ok x (f w)
  | .error e w => .error e (f w)
  | .panic message w => .panic message (f w)
  | .halt reason w => .halt reason w

/-- An action that cannot fail, in the place of one that can. -/
def noError (a : Action H Empty α) : Action H ε α := a.mapError Empty.elim

/-- Keeps objects from going away while the action runs. -/
def holding (objects : List ObjectRef) (a : Action H ε α) : Action H ε α := fun w =>
  (a.andFinally fun after => { after with held := w.held })
    { w with held := objects ++ w.held }

end Action

/-- What guest code does: it throws objects. -/
abbrev Guest (H : Type) := Action H ObjectRef

/-- How a method is called with a receiver and arguments. -/
abbrev Invoker (H : Type) := MethodRef → Option ObjectRef → List Value → Guest H Value

end GuestBoundary
