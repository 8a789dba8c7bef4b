import GuestBoundary.Proofs.Effects.Checks
import GuestBoundary.Proofs.Heap.Growth
import GuestBoundary.Proofs.Interface.Outcomes

/-!
# What a failure leaves behind

A function of the interface looks at its operands, makes objects of its own, and changes what native
code can see in its last steps.  One state leaves another one `Untouched` if references, buffers,
objects and fields are as they were; only new objects and classes may have come.  An action is
`Careful` if it leaves the state untouched whenever it raises.  It is as soon as everything but its
last fallible step keeps `Untouched`, and that step changes nothing where it fails.
-/

namespace GuestBoundary

variable {H ε α β : Type}

/-! ## Untouched states -/

namespace World

/-- What native code holds, and what classes and objects hold, is the same in the second state. -/
structure Untouched (w w' : World H) : Prop where
  /-- The local references and the frames of the running thread. -/
  locals : w'.attachment.map Attachment.locals = w.attachment.map Attachment.locals
  waiting : w'.waiting = w.waiting
  globals : w'.bridge.map Bridge.globals = w.bridge.map Bridge.globals
  buffers : w'.bridge.map Bridge.buffers = w.bridge.map Bridge.buffers
  registry : w.registry.Extends w'.registry
  /-- The static fields of every class. -/
  statics : ∀ c, (w'.classState c).statics = (w.classState c).statics
  /-- The instance fields and the elements of every object. -/
  heap : w.heap.Extends w'.heap

theorem Untouched.refl (w : World H) : Untouched w w :=
  ⟨rfl, rfl, rfl, rfl, .refl _, fun _ => rfl, .refl _⟩

theorem Untouched.trans {w w' w'' : World H} (h : Untouched w w') (h' : Untouched w' w'') :
    Untouched w w'' where
  locals := h'.locals.trans h.locals
  waiting := h'.waiting.trans h.waiting
  globals := h'.globals.trans h.globals
  buffers := h'.buffers.trans h.buffers
  registry := h.registry.trans h'.registry
  statics c := (h'.statics c).trans (h.statics c)
  heap := h.heap.trans h'.heap

theorem untouched_composable : Composable (Untouched (H := H)) := ⟨.refl, .trans⟩

section Reads

variable {w w' : World H} (u : Untouched w w')
include u

/-- Which handles are live, and of which sort, is the same. -/
theorem Untouched.refKind (h : Handle) : w'.refKind h = w.refKind h := by
  have hlocal : (w'.attachment.map fun a => a.locals.isLive h) =
      w.attachment.map fun a => a.locals.isLive h := by
    simpa only [Option.map_map, Function.comp_def] using
      congrArg (Option.map fun t => t.isLive h) u.locals
  have hglobal : (w'.bridge.map fun b => b.globals.isLive h) =
      w.bridge.map fun b => b.globals.isLive h := by
    simpa only [Option.map_map, Function.comp_def] using
      congrArg (Option.map fun t => t.isLive h) u.globals
  rw [World.refKind, World.refKind, hlocal, hglobal]

/-- Local references stand for the same objects. -/
theorem Untouched.resolve {h : Handle} (hh : h.tag = .local) : w'.resolve h = w.resolve h := by
  have := congrArg (Option.bind · fun t => t.resolve h) u.locals
  simpa only [World.resolve, hh, Option.bind_map, Function.comp_def] using this

/-- Objects that were there hold the same. -/
theorem Untouched.object {o : ObjectRef} (ho : o.index < w.heap.size) :
    w'.object o = w.object o := u.heap.get_eq o ho

end Reads

/-! ### Changes that leave a state untouched -/

theorem untouched_newObject (w : World H) (c : ClassId) (body : ObjectBody) :
    Untouched w (w.newObject c body).2 :=
  { Untouched.refl w with heap := .push _ _ }

/-- An object that is new may be changed. -/
theorem Untouched.setObject {w w' : World H} (u : Untouched w w') {o : ObjectRef}
    (ho : w.heap.size ≤ o.index) (object : Object) : Untouched w (w'.setObject o object) :=
  { u with heap := u.heap.set ho object }

theorem Untouched.setMessage {w w' : World H} (u : Untouched w w') {o : ObjectRef}
    (ho : w.heap.size ≤ o.index) (v : Value) : Untouched w (w'.setMessage o v) := by
  unfold World.setMessage
  cases h : (w'.registry.findField? (w'.classOf o) messageField messageDescriptor).bind fun f =>
      w'.setField? o f v with
  | none => exact u
  | some w'' =>
    obtain ⟨f, -, h⟩ := Option.bind_eq_some_iff.1 h
    obtain ⟨object, -, rfl⟩ := Option.map_eq_some_iff.1 h
    exact u.setObject ho object

theorem untouched_materialize (w : World H) (f : GuestFault) : Untouched w (w.materialize f).2 := by
  let c := (w.registry.find? f.kind.className).getD CoreClass.throwable.id
  have made : Untouched w ((w.newInstance c).2.newString (Text.units f.message)).2 :=
    (untouched_newObject w _ _).trans (untouched_newObject _ _ _)
  exact made.setMessage (Nat.le_refl _) _

theorem untouched_updatePending (w : World H) (f : Pending ObjectRef → Pending ObjectRef) :
    Untouched w (w.updatePending f) :=
  { Untouched.refl w with
    locals := by
      show (w.attachment.map _).map Attachment.locals = _
      rw [Option.map_map]
      rfl }

/-- The throwable of a fault is made and left pending. -/
def raised (w : World H) (f : GuestFault) : World H :=
  (w.materialize f).2.setPending (w.materialize f).1

theorem untouched_raised (w : World H) (f : GuestFault) : Untouched w (w.raised f) :=
  (untouched_materialize w f).trans (untouched_updatePending _ fun p => p.set (w.materialize f).1)

/-- On an attached thread the throwable is pending, and it is new. -/
theorem pending_raised {w : World H} (ha : w.attachment.isSome = true) (f : GuestFault) :
    (w.raised f).pending = some ⟨w.heap.size⟩ := by
  rw [attachment, ← (w.sameSide_materialize f).thread] at ha
  exact pending_setPending ha _

theorem untouched_withRegistry {w : World H} {r : Registry} (h : w.registry.Extends r) :
    Untouched w (w.withRegistry r) :=
  { Untouched.refl w with
    registry := h
    statics := fun c => by rw [classState_withRegistry] }

theorem untouched_setClassState {w : World H} {c : ClassId} {s : ClassState}
    (h : s.statics = (w.classState c).statics) : Untouched w (w.setClassState c s) :=
  { Untouched.refl w with
    statics := fun d => by
      rw [classState_setClassState]
      split
      case isTrue hd => rw [h, hd.1]
      case isFalse => rfl }

theorem untouched_withBridge {w : World H} {b b' : Bridge} (hb : w.bridge = some b)
    (hglobals : b'.globals = b.globals) (hbuffers : b'.buffers = b.buffers) :
    Untouched w { w with bridge := some b' } :=
  { Untouched.refl w with
    globals := by rw [hb, Option.map_some, Option.map_some, hglobals]
    buffers := by rw [hb, Option.map_some, Option.map_some, hbuffers] }

end World

open World

/-! ## Actions that leave the state untouched -/

namespace Entry

open Interface

theorem Checks.untouched {a : Entry H α} (ha : Checks a) : Keeps Untouched a := by
  intro w
  have h := ha w
  cases hr : a w with
  | ok x w' =>
    rw [hr] at h
    cases h
    exact .refl w
  | error e w' =>
    rw [hr] at h
    cases h
    exact .refl w
  | panic m w' =>
    rw [hr] at h
    cases h
  | halt r w' => trivial

theorem keepsUntouched_newObject (c : World H → ClassId) (body : World H → ObjectBody) :
    Keeps Untouched (Action.step fun w => w.newObject (c w) (body w) : Action H ε ObjectRef) :=
  .step fun w => untouched_newObject w _ _

theorem keepsUntouched_throwFault (f : GuestFault) :
    Keeps Untouched (Guest.throwFault f : Guest H α) := fun w => untouched_materialize w f

theorem keepsUntouched_arrayClass (component : Component) :
    Keeps Untouched (Guest.arrayClass component : Action H ε ClassId) :=
  .step fun _ => untouched_withRegistry (Registry.extends_arrayClass _ _)

theorem keepsUntouched_mirror (c : ClassId) :
    Keeps Untouched (Guest.mirror c : Action H ε ObjectRef) := by
  refine .step fun w => ?_
  split
  · exact .refl w
  · exact (untouched_newObject w _ _).trans (untouched_setClassState rfl)

theorem keepsUntouched_newPrimitiveArray (k : Kind) (n : Int32) :
    Keeps Untouched (Guest.newPrimitiveArray k n : Guest H ObjectRef) := by
  unfold Guest.newPrimitiveArray
  split
  · exact keepsUntouched_throwFault _
  · split
    · exact (keepsUntouched_arrayClass _).bind untouched_composable fun c =>
        keepsUntouched_newObject _ _
    · exact keepsUntouched_throwFault _

theorem keepsUntouched_newObjectArray (c : ClassId) (n : Int32) (initial : Option ObjectRef) :
    Keeps Untouched (Guest.newObjectArray c n initial : Guest H ObjectRef) := by
  have p := untouched_composable (H := H)
  have rest : Keeps Untouched (do
      let array ← Guest.arrayClass (.reference c)
      Action.step fun w => w.newObject array (.array (.fill n.toInt.toNat initial)) :
      Guest H ObjectRef) :=
    (keepsUntouched_arrayClass _).bind p fun array => keepsUntouched_newObject _ _
  unfold Guest.newObjectArray
  split
  · exact keepsUntouched_throwFault _
  · refine (Keeps.world p).bind p fun w => ?_
    cases initial with
    | none => exact rest
    | some o =>
      dsimp only
      split
      · exact rest
      · exact (keepsUntouched_throwFault _).bind p fun _ => rest

theorem keepsUntouched_throwable (e : EntryError) :
    Keeps Untouched (Entry.throwable e : Action H ε ObjectRef) := by
  unfold Entry.throwable
  split
  · exact .pure untouched_composable _
  · exact .step fun w => untouched_materialize w _
  · exact .halt _

end Entry

/-! ## Careful actions -/

/-- The action fails or panics. -/
def Outcome.Raises : Outcome H ε α → Prop
  | .error _ _ | .panic _ _ => True
  | .ok _ _ | .halt _ _ => False

/-- A property of the state in which an action raises. -/
def Outcome.RaisesIn (P : World H → Prop) : Outcome H EntryError α → Prop
  | .error e w => e.IsRaised → P w
  | .panic _ w => P w
  | .ok _ _ | .halt _ _ => True

theorem Outcome.Leaves.raisesIn {P : World H → Prop} {o : Outcome H EntryError α}
    (h : o.Leaves P) : o.RaisesIn P := by
  cases o with
  | ok a w => trivial
  | error e w => exact fun _ => h
  | panic m w => exact h
  | halt r w => trivial

theorem Outcome.RaisesIn.mono {P Q : World H → Prop} (hPQ : ∀ w, P w → Q w)
    {o : Outcome H EntryError α} (h : o.RaisesIn P) : o.RaisesIn Q := by
  cases o with
  | ok a w => trivial
  | error e w => exact fun he => hPQ w (h he)
  | panic m w => exact hPQ w h
  | halt r w => trivial

/-- After a check the state is the same. -/
theorem Entry.Checks.raisesIn_bind {a : Entry H α} (ha : Checks a) {f : α → Entry H β}
    {w : World H} {P : World H → Prop} (hw : P w)
    (hf : ∀ x, a w = .ok x w → (f x w).RaisesIn P) : ((a >>= f) w).RaisesIn P := by
  have h := ha w
  cases hr : a w with
  | ok x w' =>
    obtain rfl := ha.cases_ok hr
    rw [Action.bind_ok hr]
    exact hf x hr
  | error e w' =>
    obtain rfl := ha.cases_error hr
    rw [Action.bind_error hr]
    exact fun _ => hw
  | panic m w' =>
    rw [hr] at h
    cases h
  | halt r w' =>
    rw [Action.bind_halt hr]
    trivial

namespace Entry

/-- The action does not raise. -/
def NeverRaises (a : Entry H α) : Prop := ∀ w, (a w).RaisesIn fun _ => False

/-- Where the action raises, it leaves the state untouched. -/
def Careful (a : Entry H α) : Prop := ∀ w, (a w).RaisesIn w.Untouched

namespace NeverRaises

theorem pure (x : α) : NeverRaises (Pure.pure x : Entry H α) := fun _ => trivial

theorem update (f : World H → World H) : NeverRaises (Action.update f : Entry H Unit) :=
  fun _ => trivial

theorem releaseBuffer (a : Address) : NeverRaises (releaseBuffer a : Entry H Unit) := by
  intro w
  unfold Entry.releaseBuffer onBridge
  cases w.bridge with
  | none => trivial
  | some b =>
    dsimp only
    cases b.buffers.release a with
    | ok r => trivial
    | error v => exact fun he => he v rfl

/-- What does not raise may come last. -/
theorem last {a : Entry H α} {f : α → Entry H β} {w : World H} {P : World H → Prop}
    (ha : (a w).RaisesIn P) (hf : ∀ x, NeverRaises (f x)) : ((a >>= f) w).RaisesIn P := by
  cases hr : a w with
  | ok x w' =>
    rw [Action.bind_ok hr]
    exact (hf x w').mono fun _ h => h.elim
  | error e w' =>
    rw [hr] at ha
    rw [Action.bind_error hr]
    exact ha
  | panic m w' =>
    rw [hr] at ha
    rw [Action.bind_panic hr]
    exact ha
  | halt r w' =>
    rw [Action.bind_halt hr]
    trivial

theorem bind {a : Entry H α} {f : α → Entry H β} (ha : NeverRaises a)
    (hf : ∀ x, NeverRaises (f x)) : NeverRaises (a >>= f) := fun w => last (ha w) hf

theorem careful {a : Entry H α} (ha : NeverRaises a) : Careful a := fun w =>
  (ha w).mono fun _ h => h.elim

end NeverRaises

namespace Careful

theorem of_keeps {a : Entry H α} (ha : Keeps Untouched a) : Careful a := fun w => (ha w).raisesIn

/-- What leaves the state untouched may come first. -/
theorem after {a : Entry H α} {f : α → Entry H β} (ha : Keeps Untouched a)
    (hf : ∀ x, Careful (f x)) : Careful (a >>= f) := by
  intro w
  have h := ha w
  cases hr : a w with
  | ok x w' =>
    rw [hr] at h
    rw [Action.bind_ok hr]
    exact (hf x w').mono fun _ => h.trans
  | error e w' =>
    rw [hr] at h
    rw [Action.bind_error hr]
    exact fun _ => h
  | panic m w' =>
    rw [hr] at h
    rw [Action.bind_panic hr]
    exact h
  | halt r w' =>
    rw [Action.bind_halt hr]
    trivial

theorem before {a : Entry H α} {f : α → Entry H β} (ha : Careful a)
    (hf : ∀ x, NeverRaises (f x)) : Careful (a >>= f) := fun w => NeverRaises.last (ha w) hf

theorem checked {a : Entry H α} {f : α → Entry H β} (ha : Checks a) (hf : ∀ x, Careful (f x)) :
    Careful (a >>= f) := after ha.untouched hf

theorem of_checks {a : Entry H α} (ha : Checks a) : Careful a := of_keeps ha.untouched

theorem ite {c : Prop} [Decidable c] {a b : Entry H α} (ha : Careful a) (hb : Careful b) :
    Careful (if c then a else b) := by
  split
  · exact ha
  · exact hb

theorem halt (r : Halt) : Careful (Action.halt r : Entry H α) := fun _ => trivial

/-- One step on the bridge is done or not. -/
theorem onBridge (f : Bridge → Except EntryError (α × Bridge)) :
    Careful (onBridge f : Entry H α) := by
  intro w
  unfold Entry.onBridge
  cases w.bridge with
  | none => trivial
  | some b =>
    dsimp only
    cases f b with
    | ok r => trivial
    | error e => exact fun _ => .refl w

/-- So is one step on the attachment. -/
theorem onAttachment (f : Attachment → Except EntryError (α × Attachment)) :
    Careful (onAttachment f : Entry H α) := by
  intro w
  unfold Entry.onAttachment
  cases w.attachment with
  | none => trivial
  | some a =>
    dsimp only
    cases f a with
    | ok r => trivial
    | error e => exact fun _ => .refl w

theorem newLocal (o : Option ObjectRef) : Careful (newLocal o : Entry H Handle) := onAttachment _

theorem classLocal (c : ClassId) : Careful (classLocal c : Entry H Handle) :=
  after (keepsUntouched_mirror c) fun _ => newLocal _

/-- A buffer is there only once it is entered. -/
theorem bufferOf (bytes : List UInt8) : Careful (bufferOf bytes : Entry H Address) :=
  checked (.read _) fun _ => before (onBridge _) fun _ =>
    (NeverRaises.update _).bind fun _ => .pure _

theorem returned (k : Kind) (v : Value) : Careful (returned k v : Entry H Interface.Returned) := by
  refine checked .bridge fun b => checked (.ofConversion _) fun v => ?_
  split
  · exact before (newLocal _) fun _ => .pure _
  · exact of_checks (.pure _)
  · exact of_checks (.pure _)

/-- An argument is a handle or a primitive; any other one ends the run. -/
theorem passed (value : Interface.Argument) {f : Value → Entry H α} (hf : ∀ v, Careful (f v)) :
    Careful (passed value >>= f) := by
  cases value with
  | handle h => exact checked ((Checks.object h).bind fun _ => .pure _) hf
  | primitive v => exact checked (.pure v) hf
  | _ => exact fun _ => trivial

end Careful

end Entry

end GuestBoundary
