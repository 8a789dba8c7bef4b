import GuestBoundary.Interface.Call
import GuestBoundary.Proofs.Effects.Keeps

/-!
# Checks

Most of what a function of the interface does before it does anything is to look at its operands.
An action of this sort `Checks`: it answers or fails with an error of its own, and leaves the state
alone.  Checks in a row are a check.
-/

namespace GuestBoundary

variable {H α β : Type}

/-- The error is not something that guest code threw. -/
def EntryError.IsOwn (e : EntryError) : Prop := ∀ o, e ≠ .thrown o

/-- The outcome of a look at the state; without a bridge there is nothing to look at. -/
inductive Outcome.Checked (w : World H) : Outcome H EntryError α → Prop
  | ok (x : α) : Checked w (.ok x w)
  | error {e : EntryError} (own : e.IsOwn) : Checked w (.error e w)
  | unbridged (h : w.bridge = none) : Checked w (.halt .misuse w)

/-- The action looks at the state, and answers or fails. -/
def Entry.Checks (a : Entry H α) : Prop := ∀ w, (a w).Checked w

namespace Entry.Checks

open Interface

/-! ## The rules -/

theorem pure (x : α) : Checks (Pure.pure x : Entry H α) := fun _ => .ok x

theorem read (f : World H → α) : Checks (Action.read f : Entry H α) := fun _ => .ok _

theorem world : Checks (Action.world : Entry H (World H)) := fun _ => .ok _

theorem fault (kind : FaultKind) (message : String) :
    Checks (Entry.fault kind message : Entry H α) := fun _ => .error nofun

theorem violation (v : ContractViolation) : Checks (Entry.violation v : Entry H α) :=
  fun _ => .error nofun

theorem ofExcept {r : Except EntryError α} (h : ∀ e, r = .error e → e.IsOwn) :
    Checks (Action.ofExcept r : Entry H α) := by
  cases r with
  | ok x => exact pure x
  | error e => exact fun _ => .error (h e rfl)

/-- An error that is renamed to one of the interface's own. -/
theorem ofMapped {ε : Type} (r : Except ε α) {f : ε → EntryError} (hf : ∀ e, (f e).IsOwn) :
    Checks (Action.ofExcept (r.mapError f) : Entry H α) := by
  refine ofExcept fun e he => ?_
  cases r with
  | ok x => cases he
  | error e' =>
    cases he
    exact hf e'

theorem bind {a : Entry H α} {f : α → Entry H β} (ha : Checks a) (hf : ∀ x, Checks (f x)) :
    Checks (a >>= f) := by
  intro w
  have h := ha w
  cases hr : a w with
  | ok x w' =>
    rw [hr] at h
    rw [Action.bind_ok hr]
    cases h
    exact hf x w
  | error e w' =>
    rw [hr] at h
    rw [Action.bind_error hr]
    cases h with
    | error own => exact .error own
  | panic m w' =>
    rw [hr] at h
    cases h
  | halt r w' =>
    rw [hr] at h
    rw [Action.bind_halt hr]
    cases h with
    | unbridged hb => exact .unbridged hb

theorem discard {a : Entry H α} (ha : Checks a) : Checks (discard a) := ha.bind fun _ => pure ()

theorem ite {c : Prop} [Decidable c] {a b : Entry H α} (ha : Checks a) (hb : Checks b) :
    Checks (if c then a else b) := by
  split
  · exact ha
  · exact hb

/-- What an action that checks comes to, for those who go on from there. -/
theorem cases_ok {a : Entry H α} (ha : Checks a) {w w' : World H} {x : α} (h : a w = .ok x w') :
    w' = w := by
  have := ha w
  rw [h] at this
  cases this
  rfl

theorem cases_error {a : Entry H α} (ha : Checks a) {w w' : World H} {e : EntryError}
    (h : a w = .error e w') : w' = w := by
  have := ha w
  rw [h] at this
  cases this
  rfl

/-! ## Operands -/

theorem bridge : Checks (Entry.bridge : Entry H Bridge) := by
  intro w
  unfold Entry.bridge onBridge
  cases hb : w.bridge with
  | none => exact .unbridged hb
  | some b =>
    have : ({ w with bridge := some b } : World H) = w := by rw [← hb]
    dsimp only
    rw [this]
    exact .ok b

theorem object (h : Handle) : Checks (object h : Entry H (Option ObjectRef)) := read _

theorem require (h : Handle) (what : String) : Checks (require h what : Entry H ObjectRef) := by
  refine (object h).bind fun o => ?_
  cases o with
  | some o => exact pure o
  | none => exact fault _ _

theorem classOf (h : Handle) : Checks (classOf h : Entry H ClassId) := by
  refine (require h _).bind fun o => world.bind fun w => ?_
  split
  · exact pure _
  · exact fault _ _

theorem method (id : UInt64) : Checks (method id : Entry H MethodRef) :=
  bridge.bind fun _ => ofMapped _ fun _ => nofun

theorem field (id : UInt64) : Checks (field id : Entry H FieldRef) :=
  bridge.bind fun _ => ofMapped _ fun _ => nofun

theorem ofConversion (r : Except ConversionError α) : Checks (ofConversion r : Entry H α) :=
  ofMapped _ fun _ => nofun

theorem text (bytes : Option (List UInt8)) (what : String) :
    Checks (text bytes what : Entry H String) := by
  cases bytes with
  | some bytes => exact pure _
  | none => exact fault _ _

theorem capacity (n : Int32) : Checks (capacity n : Entry H Nat) := (fault _ _).ite (pure _)

theorem region (start count : Int32) (total : Nat) (kind : FaultKind) :
    Checks (region start count total kind : Entry H (Nat × Nat)) := (pure _).ite (fault _ _)

theorem bufferContents (a : Address) : Checks (bufferContents a : Entry H (List UInt8)) :=
  bridge.bind fun _ => ofMapped _ fun _ => nofun

/-! ## References, throwables and classes -/

theorem isSameObject (a b : Handle) : Checks (isSameObject a b : Entry H Bool) :=
  (object a).bind fun _ => (object b).bind fun _ => pure _

theorem getObjectRefType (h : Handle) : Checks (getObjectRefType h : Entry H RefKind) := read _

theorem exceptionCheck : Checks (exceptionCheck : Entry H Bool) := read _

theorem fatalError (message : Option (List UInt8)) : Checks (fatalError message : Entry H Unit) :=
  violation _

theorem isAssignableFrom (sub sup : Handle) : Checks (isAssignableFrom sub sup : Entry H Bool) :=
  (classOf sub).bind fun _ => (classOf sup).bind fun _ => read _

theorem isInstanceOf (h classHandle : Handle) :
    Checks (isInstanceOf h classHandle : Entry H Bool) := by
  refine (classOf classHandle).bind fun c => (object h).bind fun o => ?_
  cases o with
  | some o => exact read _
  | none => exact pure _

/-! ## Fields -/

theorem missingField (owner : String) (f : FieldRef) :
    Checks (missingField owner f : Entry H α) := (read _).bind fun _ => fault _ _

theorem instanceField (o : ObjectRef) (id : UInt64) :
    Checks (instanceField o id : Entry H FieldRef) :=
  (field id).bind fun _ => world.bind fun _ => (fault _ _).ite ((pure _).ite (fault _ _))

theorem stored (k : Kind) (v : Value) : Checks (stored k v : Entry H Value) :=
  bridge.bind fun _ => ofConversion _

/-! ## Strings -/

theorem unitsOf (h : Handle) : Checks (unitsOf h : Entry H (List Text.Unit16)) := by
  refine (require h _).bind fun o => world.bind fun w => ?_
  split
  · exact pure _
  · exact fault _ _

theorem getStringLength (h : Handle) : Checks (getStringLength h : Entry H Int32) :=
  (unitsOf h).bind fun _ => pure _

theorem getStringUtfLength (h : Handle) : Checks (getStringUtfLength h : Entry H Int32) :=
  (unitsOf h).bind fun _ => pure _

theorem getStringUtfLengthAsLong (h : Handle) :
    Checks (getStringUtfLengthAsLong h : Entry H Int64) := (unitsOf h).bind fun _ => pure _

theorem getStringRegion (h : Handle) (start count : Int32) (present : Bool) :
    Checks (getStringRegion h start count present : Entry H (List UInt8)) :=
  (unitsOf h).bind fun _ => (region _ _ _ _).bind fun _ =>
    (pure _).ite ((pure _).ite (fault _ _))

theorem getStringUtfRegion (h : Handle) (start count : Int32) (present : Bool) :
    Checks (getStringUtfRegion h start count present : Entry H (List UInt8)) :=
  (unitsOf h).bind fun _ => (region _ _ _ _).bind fun _ => (pure _).ite (fault _ _)

/-! ## Arrays -/

theorem arrayOf (h : Handle) : Checks (arrayOf h : Entry H (ObjectRef × Elements)) := by
  refine (require h _).bind fun o => world.bind fun w => ?_
  split
  · exact pure _
  · exact fault _ _

theorem notPrimitive (expected : Option Primitive) (o : ObjectRef) :
    Checks (notPrimitive expected o : Entry H α) := world.bind fun _ => fault _ _

theorem primitiveArrayOf (expected : Option Primitive) (h : Handle) :
    Checks (primitiveArrayOf expected h : Entry H (ObjectRef × Primitive × List UInt8)) := by
  refine (arrayOf h).bind fun (o, e) => ?_
  cases e with
  | primitive p bytes => exact (pure _).ite (notPrimitive _ _)
  | references items => exact notPrimitive _ _

theorem elementIndex (i : Int32) (total : Nat) : Checks (elementIndex i total : Entry H Nat) :=
  (pure _).ite (fault _ _)

theorem getArrayLength (h : Handle) : Checks (getArrayLength h : Entry H Int32) :=
  (arrayOf h).bind fun _ => pure _

theorem notReferences (o : ObjectRef) : Checks (notReferences o : Entry H α) :=
  world.bind fun _ => fault _ _

theorem getArrayRegion (p : Primitive) (h : Handle) (start count : Int32) (present : Bool) :
    Checks (getArrayRegion p h start count present : Entry H (List UInt8)) :=
  (primitiveArrayOf _ h).bind fun _ => (region _ _ _ _).bind fun _ =>
    (pure _).ite ((pure _).ite (fault _ _))

/-! ## Reflection -/

theorem memberOf (h : Handle) (what : String) :
    Checks (memberOf h what : Entry H (ObjectRef × Option Member)) :=
  (require h what).bind fun _ => world.bind fun _ => pure _

theorem notReflected (o : ObjectRef) (what : String) :
    Checks (notReflected o what : Entry H α) := world.bind fun _ => fault _ _

theorem checkOwner (c owner : ClassId) (isStatic claimed : Bool) (what : String) :
    Checks (checkOwner c owner isStatic claimed what : Entry H Unit) :=
  (read _).bind fun _ => (fault _ _).ite ((pure _).ite (fault _ _))

end Entry.Checks

end GuestBoundary
