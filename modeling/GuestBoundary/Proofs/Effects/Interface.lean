import GuestBoundary.Interface.Call
import GuestBoundary.Proofs.Effects.Operand

/-!
# What the functions of the interface do

Every function of the interface is made of steps for which there are `EntryRules`, apart from those
that raise, that clear the pending throwable or have it reported, and that open and close frames or
delete local references.  Most of them run no guest code and never wait, and need `StepRules` only.
What is checked only (`Entry.Checks`) needs no lemma here.
-/

namespace GuestBoundary

/-- A throwable is reported by a call. -/
theorem GuestRules.report {H : Type} {K : ∀ {α : Type}, Guest H α → Guest H α → Prop}
    (k : GuestRules K) {call call' : Invoker H} (hcall : CallsRelated K call call')
    (o : ObjectRef) : K (Interface.report call o) (Interface.report call' o) :=
  k.bind (k.plain (.read _)) fun _ => k.bind (k.plain (.resolveMethod _ _ _ _)) fun _ =>
    k.bind (k.plain (.dispatch _ _)) fun m => hcall m _ _

namespace Interface

variable {H : Type} {w w' : World H} {h : Handle} {o : ObjectRef}

theorem elements?_of_arrayOf {e : Elements}
    (ha : (arrayOf h : Entry H (ObjectRef × Elements)) w = .ok (o, e) w') :
    (w.object o).elements? = some e := by
  obtain ⟨o', w₁, hrequire, hread⟩ := Action.of_bind_ok ha
  cases (Entry.Checks.require h _).cases_ok hrequire
  obtain ⟨w₂, w₃, hworld, hread⟩ := Action.of_bind_ok hread
  cases hworld
  cases he : (w.object o').elements? with
  | some e' =>
    rw [he] at hread
    cases hread
    exact he
  | none =>
    rw [he] at hread
    cases hread

theorem elements?_of_primitiveArrayOf {expected : Option Primitive} {p : Primitive}
    {bytes : List UInt8}
    (ha : (primitiveArrayOf expected h : Entry H (ObjectRef × Primitive × List UInt8)) w =
      .ok (o, p, bytes) w') : ∃ e, (w.object o).elements? = some e := by
  obtain ⟨⟨o', e⟩, w₁, harray, hread⟩ := Action.of_bind_ok ha
  have he := elements?_of_arrayOf harray
  cases e with
  | primitive q bytes' =>
    dsimp only at hread
    split at hread
    · cases hread
      exact ⟨_, he⟩
    · cases hread
  | references items => cases hread

end Interface

namespace StepRules

open Entry Interface

variable {H α : Type} {P : ∀ {α : Type}, World H → Outcome H EntryError α → Prop}
  (k : StepRules P)
include k

/-! ## References and throwables -/

theorem newGlobalRef (h : Handle) : Obeys P (newGlobalRef h : Entry H Handle) := by
  refine k.after (.object h) fun o => k.onBridge (fun b g b' hb => ?_) fun b e he => ?_
  · split at hb <;> cases hb
    exact .of_eq rfl rfl rfl
  · split at he <;> cases he
    exact nofun

theorem newWeakGlobalRef (h : Handle) : Obeys P (newWeakGlobalRef h : Entry H Handle) := by
  refine k.after (.object h) fun o => k.onBridge (fun b g b' hb => ?_) fun b e he => ?_
  · split at hb <;> cases hb
    exact .of_eq rfl rfl rfl
  · split at he <;> cases he
    exact nofun

theorem deleteGlobal (kind : RefKind) (expected : String) (h : Handle) :
    Obeys P (deleteGlobal kind expected h : Entry H Unit) := by
  unfold Interface.deleteGlobal
  split
  · exact k.checks (.pure _)
  · split
    · exact k.checks (.violation _)
    · refine k.onBridge (fun b x b' hb => ?_) fun b e he => ?_
      · split at hb <;> cases hb
        exact .of_eq rfl rfl rfl
      · split at he <;> cases he
        exact nofun

theorem newLocalRef (h : Handle) : Obeys P (newLocalRef h : Entry H Handle) :=
  k.after (.object h) fun _ => k.newLocal _

theorem ensureLocalCapacity (n : Int32) : Obeys P (ensureLocalCapacity n : Entry H Unit) := by
  refine k.after (.capacity n) fun n w => ?_
  unfold onAttachment
  cases ha : w.attachment with
  | none => exact k.unattached ha
  | some a =>
    dsimp only
    cases he : a.locals.ensure n with
    | ok locals => exact k.ensure ha he
    | error e => exact k.checked (.error nofun)

theorem exceptionOccurred : Obeys P (exceptionOccurred : Entry H Handle) :=
  k.after (.read _) fun _ => k.newLocal _

/-! ## Classes -/

theorem getSuperclass (h : Handle) : Obeys P (getSuperclass h : Entry H Handle) := by
  refine k.after (.classOf h) fun c => k.after (.read _) fun definition => ?_
  split
  · split
    · exact k.checks (.pure _)
    · exact k.classLocal _
  · exact k.checks (.pure _)

theorem getObjectClass (h : Handle) : Obeys P (getObjectClass h : Entry H Handle) :=
  k.after (.require h _) fun _ => k.after (.read _) fun c => k.classLocal c

/-! ## Methods -/

/-- A call of a method, if the methods that may be called have the property. -/
theorem callMethod {call : Invoker H}
    (hrun : ∀ m receiver args, Obeys P (Entry.guest (call m receiver args))) (target : CallTarget)
    (id : UInt64) (slots : Option (List Slot)) : Obeys P (callMethod call target id slots) := by
  refine k.after (.method id) fun m => k.after (.read _) fun r => ?_
  split
  · exact k.checks (.fault _ _)
  · refine k.andThen (k.arguments m slots) fun args => ?_
    cases target with
    | virtual receiver =>
      exact k.after (.require _ _) fun o => k.andThen (k.plain (.dispatch o m)) fun m => hrun m _ _
    | nonvirtual receiver owner =>
      refine k.after (.require _ _) fun o => k.after (.classOf _) fun c =>
        k.after .world fun w => ?_
      split
      · exact hrun _ _ _
      · exact k.checks (.fault _ _)
    | static owner => exact k.after (.discard (.classOf _)) fun _ => hrun _ _ _

/-! ## Fields -/

theorem getInstanceField (kind : Kind) (h : Handle) (id : UInt64) :
    Obeys P (getInstanceField kind h id : Entry H Returned) := by
  refine k.after (.require h _) fun o => k.after (.instanceField o id) fun f =>
    k.after .world fun w => ?_
  split
  · exact k.returned kind _
  · exact k.checks (.missingField _ f)

theorem setInstanceField (h : Handle) (id : UInt64) {value : Argument}
    (hvalue : Obeys P (passed value)) :
    Obeys P (setInstanceField h id value : Entry H Unit) := by
  refine k.after (.require h _) fun o => k.after (.instanceField o id) fun f => ?_
  refine k.andThen hvalue fun v => k.after (.read _) fun r => k.after (.stored _ v) fun v => ?_
  refine look fun w => ?_
  cases hset : w.setField? o f v with
  | some w' => exact k.sameSide () (World.sameSide_setField? hset)
  | none => exact k.checks (.missingField _ f) w

/-- The value of a static field is answered. -/
theorem readStatic (kind : Kind) (f : FieldRef) : Obeys P (do
    let w ← Action.world
    match w.getStatic? f.owner f with
    | some v => Entry.returned kind v
    | none => missingField (w.registry.dottedName f.owner) f : Entry H Returned) := by
  refine k.after .world fun w => ?_
  split
  · exact k.returned kind _
  · exact k.checks (.missingField _ f)

/-- A value is put into a static field. -/
theorem writeStatic (f : FieldRef) {value : Argument} (hvalue : Obeys P (passed value)) :
    Obeys P (do
      let v ← passed value
      let r ← Action.read World.registry
      let v ← stored (r.field f).kind v
      let w ← Action.world
      match w.setStatic? f.owner f v with
      | some w => Action.update fun _ => w
      | none => missingField (w.registry.dottedName f.owner) f : Entry H Unit) := by
  refine k.andThen hvalue fun v => k.after (.read _) fun r => k.after (.stored _ v) fun v => ?_
  refine look fun w => ?_
  cases hset : w.setStatic? f.owner f v with
  | some w' => exact k.sameSide () (World.sameSide_setStatic? hset)
  | none => exact k.checks (.missingField _ f) w

/-! ## Strings -/

theorem newString (source : Option (List UInt8)) (n : Int32) :
    Obeys P (Interface.newString source n : Entry H Handle) := by
  have made : ∀ us, Obeys P (do
      let o ← Guest.newString us
      Entry.newLocal (some o) : Entry H Handle) := fun us =>
    k.andThen (k.stringObject us) fun o => k.newLocal _
  refine k.after (.capacity n) fun n => ?_
  dsimp only
  split
  · exact made _
  · split
    · exact made _
    · exact k.after (.fault _ _) made

theorem getStringChars (h : Handle) : Obeys P (getStringChars h : Entry H Address) :=
  k.after (.unitsOf h) fun _ => k.bufferOf _

theorem newStringUtf (bytes : Option (List UInt8)) :
    Obeys P (newStringUtf bytes : Entry H Handle) := by
  cases bytes with
  | none => exact k.checks (.pure _)
  | some bytes => exact k.andThen (k.stringObject _) fun o => k.newLocal _

theorem getStringUtfChars (h : Handle) : Obeys P (getStringUtfChars h : Entry H Address) :=
  k.after (.unitsOf h) fun _ => k.bufferOf _

/-! ## Arrays -/

/-- Only arrays get new elements. -/
theorem setElements {w : World H} {o : ObjectRef} {old : Elements}
    (h : (w.object o).elements? = some old) (e : Elements) :
    P w (setElements o e w : Outcome H EntryError Unit) :=
  k.sameSide () (World.sameSide_setObject rfl fun hs =>
    absurd hs (Object.not_standsIn_elements? h))

/-- A new array is of a class that is there from then on. -/
theorem arrayObject (component : Component) (body : ObjectBody) :
    Obeys P (guest (do
      let c ← Guest.arrayClass component
      Action.step fun w => w.newObject c body) : Entry H ObjectRef) := by
  rw [guest_bind]
  exact k.andThen (k.plain (.arrayClass _)) fun c => k.plain (.newObject _ _)

theorem newObjectArray (n : Int32) (element initial : Handle) :
    Obeys P (newObjectArray n element initial : Entry H Handle) := by
  refine k.after (.classOf element) fun c => k.after (.object initial) fun o =>
    k.andThen ?_ fun _ => k.newLocal _
  unfold Guest.newObjectArray
  split
  · exact k.plain (.throwFault _)
  · rw [guest_bind]
    refine k.andThen (k.plain .world) fun w => ?_
    cases o with
    | none => exact k.arrayObject _ _
    | some o =>
      dsimp only
      split
      · exact k.arrayObject _ _
      · rw [guest_bind]
        exact k.andThen (k.plain (.throwFault _)) fun _ => k.arrayObject _ _

theorem getObjectArrayElement (h : Handle) (i : Int32) :
    Obeys P (getObjectArrayElement h i : Entry H Handle) := by
  refine k.after (.arrayOf h) fun (o, e) => k.after (.elementIndex i _) fun i => ?_
  split
  · exact k.newLocal _
  · exact k.checks (.notReferences o)

theorem setObjectArrayElement (h : Handle) (i : Int32) (value : Handle) :
    Obeys P (setObjectArrayElement h i value : Entry H Unit) := by
  refine k.after (.object value) fun value w => k.afterAt (.arrayOf h) fun (o, e) harray => ?_
  have hold := elements?_of_arrayOf harray
  refine k.afterAt .world fun w' _ => ?_
  dsimp only
  cases (w'.registry.get (w'.classOf o)).element? with
  | none => exact k.checks (.notReferences o) w
  | some c =>
    refine k.afterAt (.elementIndex i _) fun i _ => ?_
    split
    · cases e.set? i (.reference value) with
      | some e' => exact k.setElements hold e'
      | none => exact k.checks (.pure ()) w
    · exact k.checks (.fault _ _) w

theorem newArray (type : Primitive) (n : Int32) :
    Obeys P (newArray type n : Entry H Handle) := by
  refine k.andThen ?_ fun _ => k.newLocal _
  unfold Guest.newPrimitiveArray
  split
  · exact k.plain (.throwFault _)
  · exact k.arrayObject _ _

theorem getElements (expected : Option Primitive) (h : Handle) :
    Obeys P (getElements expected h : Entry H Address) :=
  k.after (.primitiveArrayOf expected h) fun _ => k.bufferOf _

theorem copyBack (expected : Option Primitive) (h : Handle) (bytes : List UInt8) :
    Obeys P (copyBack expected h bytes : Entry H Unit) := by
  refine fun w => k.afterAt (.primitiveArrayOf expected h) fun (o, type, old) harray => ?_
  obtain ⟨e, hold⟩ := elements?_of_primitiveArrayOf harray
  dsimp only
  cases (Elements.primitive type old).write? 0 bytes with
  | some e' => exact k.setElements hold e'
  | none => exact k.checks (.fault _ _) w

theorem releaseElements (expected : Option Primitive) (h : Handle) (a : Address) (mode : Int32) :
    Obeys P (releaseElements expected h a mode : Entry H Unit) := by
  unfold Interface.releaseElements
  cases ReleaseMode.ofCode? mode with
  | none => exact k.checks (.fault _ _)
  | some mode =>
    have hrest : ∀ c : Entry H Unit, Obeys P c → Obeys P (do
        let copied ← c.result
        if mode.frees then Entry.releaseBuffer a else pure ()
        Action.ofExcept copied) := by
      intro c hc w
      cases hfrees : mode.frees with
      | true => exact k.afterwards (hc w) (k.releaseBuffer a)
      | false => exact k.afterwards (b := pure ()) (hc w) (k.checks (.pure ()))
    refine k.after (.bufferContents a) fun bytes => ?_
    dsimp only
    split
    · exact hrest _ (k.copyBack expected h bytes)
    · exact hrest (pure ()) (k.checks (.pure ()))

theorem setArrayRegion (type : Primitive) (h : Handle) (start count : Int32)
    (source : Option (List UInt8)) :
    Obeys P (setArrayRegion type h start count source : Entry H Unit) := by
  refine fun w => k.afterAt (.primitiveArrayOf _ h) fun (o, type, bytes) harray => ?_
  obtain ⟨e, hold⟩ := elements?_of_primitiveArrayOf harray
  refine k.afterAt (.region _ _ _ _) fun (start, count) _ => ?_
  dsimp only
  split
  · exact k.checks (.pure ()) w
  · cases source with
    | none => exact k.checks (.fault _ _) w
    | some new =>
      dsimp only
      cases (Elements.primitive type bytes).write? start (front new (count * type.width)) with
      | some e' => exact k.setElements hold e'
      | none => exact k.checks (.fault _ _) w

/-! ## Registration, monitors and reflection -/

theorem registerEach (c : ClassId) (entries : List NativeEntry) :
    Obeys P (registerEach c entries : Entry H Unit) := by
  induction entries with
  | nil => exact k.checks (.pure ())
  | cons e es ih =>
    refine k.after (.text _ _) fun name => k.after (.text _ _) fun descriptor =>
      k.after (.read _) fun r => ?_
    refine k.andThen (k.map (k.onBridgeMapped (fun _ _ _ => .register) fun _ => nofun)) fun _ => ih

theorem registerNatives (h : Handle) (entries : Option (List NativeEntry)) (n : Int32) :
    Obeys P (registerNatives h entries n : Entry H Unit) := by
  refine k.after (.classOf h) fun c => k.after (.capacity n) fun n => ?_
  split
  · exact k.checks (.pure ())
  · split
    · exact k.checks (.fault _ _)
    · exact k.registerEach c _

theorem unregisterNatives (h : Handle) : Obeys P (unregisterNatives h : Entry H Unit) :=
  k.after (.classOf h) fun _ => k.after (.read _) fun _ =>
    k.onBridge (fun _ _ _ h => by cases h; exact .of_eq rfl rfl rfl) fun _ _ h => by cases h

theorem monitorExit (h : Handle) : Obeys P (monitorExit h : Entry H Unit) := by
  refine k.after (.require h _) fun o => k.after .world fun w => ?_
  split
  · exact k.update fun _ => World.sameSide_setObject rfl fun _ => rfl
  · exact k.checks (.fault _ _)

theorem fromReflectedMethod (h : Handle) : Obeys P (fromReflectedMethod h : Entry H UInt64) := by
  refine k.after (.memberOf h _) fun (o, m) => ?_
  dsimp only
  split
  · exact k.methodId _
  · exact k.checks (.notReflected o _)

theorem fromReflectedField (h : Handle) : Obeys P (fromReflectedField h : Entry H UInt64) := by
  refine k.after (.memberOf h _) fun (o, m) => ?_
  dsimp only
  split
  · exact k.fieldId _
  · exact k.checks (.notReflected o _)

theorem toReflectedMethod (h : Handle) (id : UInt64) (isStatic : Bool) :
    Obeys P (toReflectedMethod h id isStatic : Entry H Handle) :=
  k.after (.classOf h) fun _ => k.after (.method id) fun m => k.after (.read _) fun _ =>
    k.after (.checkOwner _ _ _ _ _) fun _ => k.andThen (k.reflectMethod m) fun _ => k.newLocal _

theorem toReflectedField (h : Handle) (id : UInt64) (isStatic : Bool) :
    Obeys P (toReflectedField h id isStatic : Entry H Handle) :=
  k.after (.classOf h) fun _ => k.after (.field id) fun f => k.after (.read _) fun _ =>
    k.after (.checkOwner _ _ _ _ _) fun _ => k.andThen (k.reflectField f) fun _ => k.newLocal _

end StepRules

/-! ## Monitors and guest code -/

namespace EntryRules

open Entry Interface

variable {H α : Type} {G : ∀ {α : Type}, Guest H α → Prop}
  {P : ∀ {α : Type}, World H → Outcome H EntryError α → Prop} (k : EntryRules G P)
include k

theorem monitorEnter (h : Handle) : Obeys P (monitorEnter h : Entry H Unit) := by
  refine k.after (.require h _) fun o => StepRules.look fun w => ?_
  cases henter : (w.object o).monitor.enter? w.thread.id with
  | some monitor => exact k.sameSide () (World.sameSide_setObject rfl fun _ => rfl)
  | none => exact k.locked henter

variable {call : Invoker H} (hcall : CallsRelated (fun a _ => G a) call call)
include hcall

theorem newThrowable (c : ClassId) (message : Option String) :
    Obeys P (Entry.guest (Guest.newThrowable call c message)) :=
  k.guest (k.guestRules.newThrowable hcall c message)

theorem initClass (c : ClassId) : Obeys P (Entry.guest (Guest.initClass call c)) :=
  k.guest (k.guestRules.initClass hcall c)

theorem findClass (name : Option (List UInt8)) : Obeys P (findClass call name) :=
  k.after (.text _ _) fun _ => k.andThen (k.plain (.findClass _)) fun c =>
    k.andThen (k.initClass hcall c) fun _ => k.classLocal c

theorem allocObject (h : Handle) : Obeys P (allocObject call h) :=
  k.after (.classOf h) fun c => k.andThen (k.guest (k.guestRules.allocate hcall c)) fun _ =>
    k.newLocal _

theorem newObject (h : Handle) (id : UInt64) (slots : Option (List Slot)) :
    Obeys P (newObject call h id slots) := by
  refine k.after (.classOf h) fun c => k.after (.method id) fun m => k.after (.read _) fun r => ?_
  split
  · refine k.andThen (k.arguments m slots) fun args => ?_
    exact k.andThen (k.guest (k.guestRules.constructWith hcall c m args)) fun o => k.newLocal _
  · exact k.checks (.fault _ _)

theorem getMethodId (mode : FieldMode) (h : Handle) (name descriptor : Option (List UInt8)) :
    Obeys P (getMethodId call mode h name descriptor) :=
  k.after (.classOf h) fun c => k.andThen (k.initClass hcall c) fun _ =>
    k.after (.text _ _) fun _ => k.after (.text _ _) fun _ =>
      k.andThen (k.plain (.resolveMethod _ _ _ _)) fun m => k.methodId m

theorem getFieldId (mode : FieldMode) (h : Handle) (name descriptor : Option (List UInt8)) :
    Obeys P (getFieldId call mode h name descriptor) :=
  k.after (.classOf h) fun c => k.andThen (k.initClass hcall c) fun _ =>
    k.after (.text _ _) fun _ => k.after (.text _ _) fun _ =>
      k.andThen (k.plain (.resolveField _ _ _ _)) fun f => k.fieldId f

theorem staticField (h : Handle) (id : UInt64) : Obeys P (staticField call h id) := by
  refine k.after (.discard (.classOf h)) fun _ => k.after (.field id) fun f =>
    k.after (.read _) fun r => ?_
  split
  · exact k.map (k.initClass hcall _)
  · exact k.checks (.fault _ _)

theorem getStaticField (kind : Kind) (h : Handle) (id : UInt64) :
    Obeys P (getStaticField call kind h id) :=
  k.andThen (k.staticField hcall h id) fun f => k.readStatic kind f

theorem setStaticField (h : Handle) (id : UInt64) {value : Argument}
    (hvalue : Obeys P (passed value)) : Obeys P (setStaticField call h id value) :=
  k.andThen (k.staticField hcall h id) fun f => k.writeStatic f hvalue

end EntryRules

end GuestBoundary
