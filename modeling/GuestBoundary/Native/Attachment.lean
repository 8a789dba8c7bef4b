import GuestBoundary.Guest.Throwable

/-!
# Attached threads

Before native code can run on a thread, the thread is attached: it gets a table of local references
and a place for a pending throwable.  Both go away when the thread is detached, which is refused
while a frame is open.  Handles are resolved here: local ones against the table of the running
thread, global ones against the bridge.
-/

namespace GuestBoundary

namespace World

variable {H : Type}

/-! ## References -/

/-- The object that a handle stands for.  Null, released and foreign handles stand for none. -/
def resolve (w : World H) (h : Handle) : Option ObjectRef :=
  match h.tag with
  | .invalid => none
  | .local => w.attachment.bind fun a => a.locals.resolve h
  | .global | .weakGlobal => w.bridge.bind fun b => b.globals.resolve w.isAlive h

/-- The sort of a live handle, and otherwise no sort. -/
def refKind (w : World H) (h : Handle) : RefKind :=
  let live : Bool :=
    match h.tag with
    | .invalid => false
    | .local => (w.attachment.map fun a => a.locals.isLive h).getD false
    | .global | .weakGlobal => (w.bridge.map fun b => b.globals.isLive h).getD false
  if live then h.tag else .invalid

/-- The pending throwable. -/
def pending (w : World H) : Option ObjectRef := w.attachment.bind fun a => a.pending.slot

/-- Changes the place of the pending throwable. -/
def updatePending (w : World H) (f : Pending ObjectRef → Pending ObjectRef) : World H :=
  w.setAttachment (w.attachment.map fun a => { a with pending := f a.pending })

def setPending (w : World H) (o : ObjectRef) : World H := w.updatePending fun p => p.set o

/-! ## Attaching and detaching -/

/-- Attaches the running thread, unless it is attached already. -/
def attach (w : World H) (b : Bridge) : Env × World H :=
  match w.attachment with
  | some a => (⟨w.thread.id, a.serial⟩, w)
  | none =>
    let a : Attachment := ⟨w.attachments, .empty b.config.maxLocals.toNat, .empty⟩
    (⟨w.thread.id, a.serial⟩, { w.setAttachment (some a) with attachments := w.attachments + 1 })

/-- Drops the bridge once neither the embedding program nor an attached thread holds it. -/
def releaseBridge (w : World H) : World H :=
  if w.bridgeHeld || w.allThreads.any fun t => t.attachment.isSome then w
  else { w with bridge := none }

/-- Detaches the running thread, which loses its local references and its pending throwable. -/
def detach (w : World H) : Status × World H :=
  match w.attachment with
  | none => (.detached, w)
  | some a =>
    if a.locals.depth > 1 then (.err, w)
    else (.ok, (w.setAttachment none).releaseBridge)

/-- Puts a bridge in charge of native methods. -/
def install (w : World H) (config : Config) : World H :=
  { w with linked := true, bridge := some (.empty config), bridgeHeld := true }

/-- The environment of the running thread, for code that needs a version of the interface. -/
def getEnv (w : World H) (requested : Version) : Except Status Env :=
  match w.bridge, w.attachment with
  | some b, some a =>
    if requested.isSupported b.config.version then .ok ⟨w.thread.id, a.serial⟩
    else .error .version
  | _, _ => .error .detached

end World

/-! ## Errors on the native side -/

/-- Why an action on the native side failed. -/
inductive EntryError where
  | fault (f : GuestFault)
  /-- Guest code threw. -/
  | thrown (o : ObjectRef)
  | alloc (e : AllocError)
  | conversion (e : ConversionError)
  | bind (e : BindError)
  /-- Native code broke the rules. -/
  | contract (v : ContractViolation)

/-- What the guest gets to see of an error: the object that was thrown, a fault, or nothing, since
the run is over. -/
inductive Surfaced where
  | object (o : ObjectRef)
  | fault (f : GuestFault)
  | none (v : ContractViolation)

def EntryError.surface : EntryError → Surfaced
  | fault f => .fault f
  | thrown o => .object o
  | alloc e => .fault ⟨.outOfMemory, e.message⟩
  | conversion e => .fault e.toFault
  | bind e => .fault e.toFault
  | contract v => .none v

/-- What the native side does. -/
abbrev Entry (H : Type) := Action H EntryError

namespace Entry

variable {H ε α : Type}

/-- The throwable of an error; a broken rule ends the run. -/
def throwable (e : EntryError) : Action H ε ObjectRef :=
  match e.surface with
  | .object o => pure o
  | .fault f => Action.step fun w => w.materialize f
  | .none v => Action.halt (.violation v)

/-- Fails with a fault. -/
def fault (kind : FaultKind) (message : String) : Entry H α := Action.fail (.fault ⟨kind, message⟩)

/-- Fails because native code broke a rule. -/
def violation (v : ContractViolation) : Entry H α := Action.fail (.contract v)

/-- What guest code throws fails here. -/
def guest (a : Guest H α) : Entry H α := a.mapError .thrown

def ofConversion (r : Except ConversionError α) : Entry H α :=
  Action.ofExcept (r.mapError .conversion)

/-- An action on the attachment of the running thread. -/
def onAttachment (f : Attachment → Except EntryError (α × Attachment)) : Entry H α := fun w =>
  match w.attachment with
  | none => .halt .misuse w
  | some a =>
    match f a with
    | .ok (x, a) => .ok x (w.setAttachment (some a))
    | .error e => .error e w

/-- An action on the bridge. -/
def onBridge (f : Bridge → Except EntryError (α × Bridge)) : Entry H α := fun w =>
  match w.bridge with
  | none => .halt .misuse w
  | some b =>
    match f b with
    | .ok (x, b) => .ok x { w with bridge := some b }
    | .error e => .error e w

/-- The bridge. -/
def bridge : Entry H Bridge := onBridge fun b => .ok (b, b)

/-! ## Frames and references -/

/-- Makes a local reference in the innermost frame. -/
def newLocal (o : Option ObjectRef) : Entry H Handle := onAttachment fun a =>
  match a.locals.create o with
  | .ok (h, locals) => .ok (h, { a with locals })
  | .error e => .error (.alloc e)

/-- Opens a frame. -/
def pushFrame (capacity : Nat) : Entry H Unit := onAttachment fun a =>
  match a.locals.push capacity with
  | .ok locals => .ok ((), { a with locals })
  | .error e => .error (.alloc e)

/-- Closes the innermost frame and makes a reference to `result` in the one around it.  The frame
is closed even if that reference finds no room. -/
def popFrame (result : Option ObjectRef) : Entry H Handle := do
  let promoted ← onAttachment fun a =>
    match a.locals.pop? result with
    | none => .error (.contract .unbalancedFrame)
    | some (promoted, locals) => .ok (promoted, { a with locals })
  match promoted with
  | .ok h => return h
  | .error e => Action.fail (.alloc e)

end Entry

end GuestBoundary
