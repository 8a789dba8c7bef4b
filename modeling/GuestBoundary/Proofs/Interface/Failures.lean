import GuestBoundary.Proofs.Effects.Call
import GuestBoundary.Proofs.Effects.Untouched

/-!
# Calls that fail leave nothing behind

A function of the interface that runs no guest code is careful: where it raises, references,
buffers, arrays and fields are as they were, and the throwable with its message is all that is new.
Two functions do something first that they do not take back.  `PopLocalFrame` closes the frame
before it makes a reference in the one around it, and a release in mode 0 frees the buffer even if
its bytes do not go back into the array.
-/

namespace GuestBoundary.Interface

open Entry World

variable {H ε : Type}

/-! ## Functions without guest code -/

/-- A function that runs no guest code is the same however methods are called. -/
theorem perform_eq_of_not_runsGuest {f : Function} {args : List Argument} (hs : Shaped f args)
    (hf : f.runsGuest = false) (call call' : Invoker H) :
    perform call f args = perform call' f args := by
  cases hs
  case getField mode k h id => cases mode with
    | perObject => rfl
    | static => cases hf
  case setField mode k h id value => cases mode with
    | perObject => rfl
    | static => cases hf
  all_goals first | contradiction | rfl

/-! ## What is not taken back -/

/-- A frame was closed, and the reference to the object of a handle found no room in the one
around it. -/
def PromotionFailed (h : Handle) (w w' : World H) : Prop :=
  ∃ a closed e, w.attachment = some a ∧ a.locals.close? = some closed ∧
    closed.create (w.resolve h) = .error e ∧
    Untouched (w.setAttachment (some { a with locals := closed })) w'

/-- A buffer was freed whose bytes did not go back into the array of a handle. -/
def WriteBackFailed (expected : Option Primitive) (h : Handle) (a : Address) (w w' : World H) :
    Prop :=
  ∃ b bytes e n buffers, w.bridge = some b ∧ b.buffers.contents a = .ok bytes ∧
    copyBack expected h bytes w = .error e w ∧ b.buffers.release a = .ok (n, buffers) ∧
    Untouched { w with bridge := some { b with buffers } } w'

/-- How the state after a call that raised differs from the one before. -/
inductive FailedFrom (w w' : World H) : Function → List Argument → Prop
  | untouched {f args} (u : Untouched w w') : FailedFrom w w' f args
  | popped {h} (p : PromotionFailed h w w') : FailedFrom w w' .popLocalFrame [.handle h]
  | freed {type h a} (r : WriteBackFailed (some type) h a w w') :
    FailedFrom w w' (.releaseArrayElements type) [.handle h, .buffer a, .primitive (.int 0)]
  | freedCritical {h a} (r : WriteBackFailed none h a w w') :
    FailedFrom w w' .releasePrimitiveArrayCritical [.handle h, .buffer a, .primitive (.int 0)]

/-- What comes after the failure may leave the state untouched. -/
theorem FailedFrom.trans {w w' w'' : World H} {f : Function} {args : List Argument}
    (d : FailedFrom w w' f args) (u : Untouched w' w'') : FailedFrom w w'' f args := by
  cases d with
  | untouched u' => exact .untouched (u'.trans u)
  | popped p =>
    obtain ⟨a, closed, e, ha, hclose, hcreate, u'⟩ := p
    exact .popped ⟨a, closed, e, ha, hclose, hcreate, u'.trans u⟩
  | freed r =>
    obtain ⟨b, bytes, e, n, buffers, hb, hcontents, hcopy, hrelease, u'⟩ := r
    exact .freed ⟨b, bytes, e, n, buffers, hb, hcontents, hcopy, hrelease, u'.trans u⟩
  | freedCritical r =>
    obtain ⟨b, bytes, e, n, buffers, hb, hcontents, hcopy, hrelease, u'⟩ := r
    exact .freedCritical ⟨b, bytes, e, n, buffers, hb, hcontents, hcopy, hrelease, u'.trans u⟩

/-! ## References, frames and raising -/

theorem careful_newGlobalRef (h : Handle) : Careful (newGlobalRef h : Entry H Handle) :=
  .checked (.object h) fun _ => .onBridge _

theorem careful_newWeakGlobalRef (h : Handle) : Careful (newWeakGlobalRef h : Entry H Handle) :=
  .checked (.object h) fun _ => .onBridge _

theorem careful_deleteGlobal (kind : RefKind) (expected : String) (h : Handle) :
    Careful (deleteGlobal kind expected h : Entry H Unit) :=
  .ite (.of_checks (.pure _)) (.ite (.of_checks (.violation _)) (.onBridge _))

theorem careful_newLocalRef (h : Handle) : Careful (newLocalRef h : Entry H Handle) :=
  .checked (.object h) fun _ => .newLocal _

theorem careful_deleteLocalRef (h : Handle) : Careful (deleteLocalRef h : Entry H Unit) :=
  .ite (.of_checks (.pure _)) (.onAttachment _)

theorem careful_pushLocalFrame (n : Int32) : Careful (pushLocalFrame n : Entry H Unit) :=
  .checked (.capacity n) fun _ => .onAttachment _

theorem careful_ensureLocalCapacity (n : Int32) :
    Careful (ensureLocalCapacity n : Entry H Unit) :=
  .checked (.capacity n) fun _ => .onAttachment _

/-- Closing a frame raises for want of room only. -/
theorem popLocalFrame_raisesIn (h : Handle) (w : World H) :
    (popLocalFrame h w).RaisesIn (PromotionFailed h w) := by
  rw [popLocalFrame, Action.bind_ok object_eq]
  unfold popFrame
  cases ha : w.attachment with
  | none =>
    rw [Action.bind_halt (by unfold onAttachment; rw [ha])]
    trivial
  | some a =>
    cases hclose : a.locals.close? with
    | none =>
      rw [Action.bind_error (by
        unfold onAttachment
        simp only [ha, Locals.pop?, hclose, Option.map_none]
        rfl)]
      exact fun he => (he _ rfl).elim
    | some closed =>
      cases hcreate : closed.create (w.resolve h) with
      | ok r =>
        rw [Action.bind_ok (by
          unfold onAttachment
          simp only [ha, Locals.pop?, hclose, hcreate, Option.map_some]
          rfl)]
        trivial
      | error e =>
        rw [Action.bind_ok (by
          unfold onAttachment
          simp only [ha, Locals.pop?, hclose, hcreate, Option.map_some]
          rfl)]
        exact fun _ => ⟨a, closed, e, ha, hclose, hcreate, .refl _⟩

theorem careful_throw (h : Handle) : Careful (throw h : Entry H Unit) :=
  .checked (.require h _) fun _ => .checked .world fun _ =>
    .ite (NeverRaises.update _).careful (.of_checks (.fault _ _))

theorem careful_exceptionOccurred : Careful (exceptionOccurred : Entry H Handle) :=
  .checked (.read _) fun _ => .newLocal _

/-! ## Classes and members -/

theorem careful_getSuperclass (h : Handle) : Careful (getSuperclass h : Entry H Handle) := by
  refine .checked (.classOf h) fun c => .checked (.read _) fun definition => ?_
  cases definition.superclass with
  | some s => exact .ite (.of_checks (.pure _)) (.classLocal s)
  | none => exact .of_checks (.pure _)

theorem careful_getObjectClass (h : Handle) : Careful (getObjectClass h : Entry H Handle) :=
  .checked (.require h _) fun _ => .checked (.read _) fun c => .classLocal c

theorem careful_getInstanceField (k : Kind) (h : Handle) (id : UInt64) :
    Careful (getInstanceField k h id : Entry H Returned) := by
  refine .checked (.require h _) fun o => .checked (.instanceField o id) fun f =>
    .checked .world fun w => ?_
  cases w.getField? o f with
  | some v => exact .returned k v
  | none => exact .of_checks (.missingField _ f)

theorem careful_setInstanceField (h : Handle) (id : UInt64) (value : Argument) :
    Careful (setInstanceField h id value : Entry H Unit) := by
  refine .checked (.require h _) fun o => .checked (.instanceField o id) fun f =>
    .passed value fun v => .checked (.read _) fun r => .checked (.stored _ v) fun v =>
      .checked .world fun w => ?_
  cases w.setField? o f v with
  | some w' => exact (NeverRaises.update _).careful
  | none => exact .of_checks (.missingField _ f)

theorem careful_fromReflectedMethod (h : Handle) :
    Careful (fromReflectedMethod h : Entry H UInt64) := by
  refine .checked (.memberOf h _) fun (o, m) => ?_
  dsimp only
  split
  · exact .onBridge _
  · exact .of_checks (.notReflected _ _)

theorem careful_fromReflectedField (h : Handle) :
    Careful (fromReflectedField h : Entry H UInt64) := by
  refine .checked (.memberOf h _) fun (o, m) => ?_
  dsimp only
  split
  · exact .onBridge _
  · exact .of_checks (.notReflected _ _)

theorem careful_toReflectedMethod (h : Handle) (id : UInt64) (isStatic : Bool) :
    Careful (toReflectedMethod h id isStatic : Entry H Handle) :=
  .checked (.classOf h) fun _ => .checked (.method id) fun _ => .checked (.read _) fun _ =>
    .checked (.checkOwner _ _ _ _ _) fun _ => .after (keepsUntouched_newObject _ _) fun _ =>
      .newLocal _

theorem careful_toReflectedField (h : Handle) (id : UInt64) (isStatic : Bool) :
    Careful (toReflectedField h id isStatic : Entry H Handle) :=
  .checked (.classOf h) fun _ => .checked (.field id) fun _ => .checked (.read _) fun _ =>
    .checked (.checkOwner _ _ _ _ _) fun _ => .after (keepsUntouched_newObject _ _) fun _ =>
      .newLocal _

/-! ## Native methods -/

theorem untouched_register {b b' : Bridge} {r : Registry} {c : ClassId} {name descriptor : String}
    {address : Address} {binding : Binding}
    (h : b.register r c name descriptor address = .ok (binding, b')) :
    b'.globals = b.globals ∧ b'.buffers = b.buffers := by
  unfold Bridge.register at h
  split at h
  · cases h
  split at h
  · cases h
  split at h
  · cases h
  unfold Bridge.bind at h
  split at h
  · cases h
  · cases h
    exact ⟨rfl, rfl⟩

/-- Bindings that were made before a failure are no references. -/
theorem keepsUntouched_registerEach (c : ClassId) (entries : List NativeEntry) :
    Keeps Untouched (registerEach c entries : Entry H Unit) := by
  have p := untouched_composable (H := H)
  induction entries with
  | nil => exact .pure p ()
  | cons entry entries ih =>
    refine (Checks.text _ _).untouched.bind p fun name => ?_
    refine (Checks.text _ _).untouched.bind p fun descriptor => (Keeps.read p _).bind p fun r => ?_
    refine (Keeps.discard p fun w => ?_).bind p fun _ => ih
    unfold onBridge
    cases hb : w.bridge with
    | none => trivial
    | some b =>
      dsimp only
      cases hr : b.register r c name descriptor entry.function with
      | error e => exact .refl w
      | ok made =>
        obtain ⟨hglobals, hbuffers⟩ := untouched_register hr
        exact untouched_withBridge hb hglobals hbuffers

theorem careful_registerNatives (h : Handle) (entries : Option (List NativeEntry)) (n : Int32) :
    Careful (registerNatives h entries n : Entry H Unit) := by
  refine .checked (.classOf h) fun c => .checked (.capacity n) fun n =>
    .ite (.of_checks (.pure ())) ?_
  cases entries with
  | none => exact .of_checks (.fault _ _)
  | some entries => exact .of_keeps (keepsUntouched_registerEach _ _)

theorem careful_unregisterNatives (h : Handle) : Careful (unregisterNatives h : Entry H Unit) :=
  .checked (.classOf h) fun _ => .checked (.read _) fun _ => .onBridge _

/-! ## Strings and monitors -/

theorem careful_newString (source : Option (List UInt8)) (n : Int32) :
    Careful (newString source n : Entry H Handle) := by
  have made : ∀ us : List Text.Unit16, Careful (do
      let o ← Guest.newString us
      newLocal (some o) : Entry H Handle) := fun us =>
    .after (keepsUntouched_newObject _ _) fun _ => .newLocal _
  refine .checked (.capacity n) fun n => ?_
  dsimp only
  split
  · exact .checked (.pure _) made
  · cases source with
    | some bytes => exact .checked (.pure _) made
    | none => exact .checked (.fault _ _) made

theorem careful_getStringChars (h : Handle) : Careful (getStringChars h : Entry H Address) :=
  .checked (.unitsOf h) fun _ => .bufferOf _

theorem careful_newStringUtf (bytes : Option (List UInt8)) :
    Careful (newStringUtf bytes : Entry H Handle) := by
  cases bytes with
  | none => exact .of_checks (.pure _)
  | some bytes => exact .after (keepsUntouched_newObject _ _) fun _ => .newLocal _

theorem careful_getStringUtfChars (h : Handle) : Careful (getStringUtfChars h : Entry H Address) :=
  .checked (.unitsOf h) fun _ => .bufferOf _

theorem careful_monitorEnter (h : Handle) : Careful (monitorEnter h : Entry H Unit) := by
  refine .checked (.require h _) fun o => .checked .world fun w => ?_
  split
  · exact (NeverRaises.update _).careful
  · exact .halt _

theorem careful_monitorExit (h : Handle) : Careful (monitorExit h : Entry H Unit) := by
  refine .checked (.require h _) fun o => .checked .world fun w => ?_
  split
  · exact (NeverRaises.update _).careful
  · exact .of_checks (.fault _ _)

/-! ## Arrays -/

theorem keepsUntouched_guest {α : Type} {a : Guest H α} (ha : Keeps Untouched a) :
    Keeps Untouched (guest a) := ha.mapError _

theorem careful_newObjectArray (n : Int32) (element initial : Handle) :
    Careful (newObjectArray n element initial : Entry H Handle) :=
  .checked (.classOf element) fun _ => .checked (.object initial) fun _ =>
    .after (keepsUntouched_guest (keepsUntouched_newObjectArray _ _ _)) fun _ => .newLocal _

theorem careful_getObjectArrayElement (h : Handle) (i : Int32) :
    Careful (getObjectArrayElement h i : Entry H Handle) := by
  refine .checked (.arrayOf h) fun (o, e) => .checked (.elementIndex i _) fun i => ?_
  split
  · exact .newLocal _
  · exact .of_checks (.notReferences o)

theorem careful_setObjectArrayElement (h : Handle) (i : Int32) (value : Handle) :
    Careful (setObjectArrayElement h i value : Entry H Unit) := by
  refine .checked (.object value) fun v => .checked (.arrayOf h) fun (o, e) =>
    .checked .world fun w => ?_
  dsimp only
  split
  · exact .of_checks (.notReferences o)
  · refine .checked (.elementIndex i _) fun i => .ite ?_ (.of_checks (.fault _ _))
    split
    · exact (NeverRaises.update _).careful
    · exact .of_checks (.pure ())

theorem careful_newArray (type : Primitive) (n : Int32) :
    Careful (newArray type n : Entry H Handle) :=
  .after (keepsUntouched_guest (keepsUntouched_newPrimitiveArray _ n)) fun _ => .newLocal _

theorem careful_getElements (expected : Option Primitive) (h : Handle) :
    Careful (getElements expected h : Entry H Address) :=
  .checked (.primitiveArrayOf expected h) fun _ => .bufferOf _

theorem careful_setArrayRegion (type : Primitive) (h : Handle) (start count : Int32)
    (source : Option (List UInt8)) :
    Careful (setArrayRegion type h start count source : Entry H Unit) := by
  refine .checked (.primitiveArrayOf _ h) fun (o, type, bytes) =>
    .checked (.region _ _ _ _) fun (start, count) => .ite (.of_checks (.pure ())) ?_
  cases source with
  | none => exact .of_checks (.fault _ _)
  | some new =>
    dsimp only
    split
    · exact (NeverRaises.update _).careful
    · exact .of_checks (.fault _ _)

/-! ### Releases -/

section Release

variable (expected : Option Primitive) (h : Handle) (a : Address)

theorem releaseElements_finish :
    (releaseElements expected h a ReleaseMode.finish.code : Entry H Unit) = (do
      let bytes ← bufferContents a
      let copied ← (copyBack expected h bytes).result
      releaseBuffer a
      Action.ofExcept copied) := rfl

theorem releaseElements_commit :
    (releaseElements expected h a ReleaseMode.commit.code : Entry H Unit) = (do
      let bytes ← bufferContents a
      let copied ← (copyBack expected h bytes).result
      Action.ofExcept copied) := rfl

theorem releaseElements_abort :
    (releaseElements expected h a ReleaseMode.abort.code : Entry H Unit) = (do
      let _ ← bufferContents a
      releaseBuffer a
      return ()) := rfl

/-- A copy that fails has changed nothing. -/
theorem copyBack_error {bytes : List UInt8} {e : EntryError} {w w' : World H}
    (hcopy : copyBack expected h bytes w = .error e w') : w' = w := by
  unfold copyBack at hcopy
  cases hr : primitiveArrayOf expected h w with
  | ok r w₁ =>
    obtain ⟨o, p, old⟩ := r
    obtain rfl := (Checks.primitiveArrayOf expected h).cases_ok hr
    rw [Action.bind_ok hr] at hcopy
    cases hwrite : (Elements.primitive p old).write? 0 bytes with
    | some e =>
      simp only [hwrite] at hcopy
      cases hcopy
    | none =>
      simp only [hwrite] at hcopy
      cases hcopy
      rfl
  | error e' w₁ =>
    rw [Action.bind_error hr] at hcopy
    cases hcopy
    exact (Checks.primitiveArrayOf expected h).cases_error hr
  | panic m w₁ =>
    rw [Action.bind_panic hr] at hcopy
    cases hcopy
  | halt r w₁ =>
    rw [Action.bind_halt hr] at hcopy
    cases hcopy

theorem neverPanics_copyBack (bytes : List UInt8) :
    NeverPanics (copyBack expected h bytes : Entry H Unit) := by
  refine NeverPanics.bind ?_ fun (o, p, old) => ?_
  · intro w m w' hr
    have := Checks.primitiveArrayOf expected h w
    rw [hr] at this
    cases this
  · intro w m w' hr
    cases hwrite : (Elements.primitive p old).write? 0 bytes with
    | some e =>
      simp only [hwrite] at hr
      cases hr
    | none =>
      simp only [hwrite] at hr
      cases hr

theorem contents_of_bufferContents {bytes : List UInt8} {w w' : World H}
    (hbytes : bufferContents a w = .ok bytes w') :
    ∃ b, w.bridge = some b ∧ b.buffers.contents a = .ok bytes := by
  cases hb : w.bridge with
  | none =>
    rw [bufferContents, Action.bind_halt (bridge_none hb)] at hbytes
    cases hbytes
  | some b =>
    rw [bufferContents, Action.bind_ok (bridge_eq hb)] at hbytes
    cases hcontents : b.buffers.contents a with
    | ok bytes' =>
      rw [hcontents] at hbytes
      cases hbytes
      exact ⟨b, rfl, hcontents⟩
    | error v =>
      rw [hcontents] at hbytes
      cases hbytes

/-- A buffer that has contents can be taken back. -/
theorem release_of_contents {r : Buffers} {bytes : List UInt8}
    (hcontents : r.contents a = .ok bytes) : ∃ n r', r.release a = .ok (n, r') := by
  unfold Buffers.contents at hcontents
  unfold Buffers.release
  cases hfind : r.find? a with
  | some block => exact ⟨_, _, rfl⟩
  | none =>
    rw [hfind] at hcontents
    cases hcontents

theorem code_of_ofCode? {mode : Int32} {m : ReleaseMode} (hm : ReleaseMode.ofCode? mode = some m) :
    mode = m.code := by
  unfold ReleaseMode.ofCode? at hm
  split_ifs at hm with hfinish hcommit habort <;> cases hm <;> assumption

/-- A release raises where the mode means nothing or the bytes do not go back; in mode 0 the buffer
is gone then. -/
theorem releaseElements_raisesIn (mode : Int32) (w : World H) :
    (releaseElements expected h a mode w).RaisesIn fun w' =>
      Untouched w w' ∨ mode = 0 ∧ WriteBackFailed expected h a w w' := by
  cases hm : ReleaseMode.ofCode? mode with
  | none =>
    unfold releaseElements
    rw [hm]
    exact fun _ => .inl (.refl w)
  | some m =>
    obtain rfl := code_of_ofCode? hm
    cases m with
    | finish =>
      rw [releaseElements_finish]
      refine (Checks.bufferContents a).raisesIn_bind (.inl (.refl w)) fun bytes hbytes => ?_
      cases hcopy : copyBack expected h bytes w with
      | ok x w₁ =>
        rw [Action.bind_ok (Action.result_ok hcopy)]
        exact NeverRaises.last ((NeverRaises.releaseBuffer a w₁).mono fun _ => False.elim)
          fun _ => .pure ()
      | error e w₁ =>
        obtain rfl := copyBack_error expected h hcopy
        obtain ⟨b, hb, hcontents⟩ := contents_of_bufferContents a hbytes
        obtain ⟨n, buffers, hrelease⟩ := release_of_contents a hcontents
        rw [Action.bind_ok (Action.result_error hcopy),
          Action.bind_ok (releaseBuffer_ok hb hrelease)]
        exact fun _ => .inr ⟨rfl, b, bytes, e, n, buffers, hb, hcontents, hcopy, hrelease, .refl _⟩
      | panic m w₁ => exact (neverPanics_copyBack expected h bytes w m w₁ hcopy).elim
      | halt r w₁ =>
        rw [Action.bind_halt (Action.result_halt hcopy)]
        trivial
    | commit =>
      rw [releaseElements_commit]
      refine (Checks.bufferContents a).raisesIn_bind (.inl (.refl w)) fun bytes hbytes => ?_
      cases hcopy : copyBack expected h bytes w with
      | ok x w₁ =>
        rw [Action.bind_ok (Action.result_ok hcopy)]
        trivial
      | error e w₁ =>
        obtain rfl := copyBack_error expected h hcopy
        rw [Action.bind_ok (Action.result_error hcopy)]
        exact fun _ => .inl (.refl _)
      | panic m w₁ => exact (neverPanics_copyBack expected h bytes w m w₁ hcopy).elim
      | halt r w₁ =>
        rw [Action.bind_halt (Action.result_halt hcopy)]
        trivial
    | abort =>
      rw [releaseElements_abort]
      refine (Checks.bufferContents a).raisesIn_bind (.inl (.refl w)) fun bytes hbytes => ?_
      exact NeverRaises.last ((NeverRaises.releaseBuffer a w).mono fun _ => False.elim)
        fun _ => .pure ()

end Release

/-! ## Every function -/

/-- Answering does not raise. -/
theorem raisesIn_answer {α : Type} {a : Entry H α} {answer : α → Answer} {w : World H}
    {P : World H → Prop} (ha : (a w).RaisesIn P) :
    ((a >>= fun x => pure (answer x) : Entry H Answer) w).RaisesIn P :=
  NeverRaises.last ha fun _ => .pure _

/-- How each function raises that runs no guest code. -/
theorem perform_raisesIn (call : Invoker H) {f : Function} {args : List Argument}
    (hs : Shaped f args) (hf : f.runsGuest = false) (w : World H) :
    (perform call f args w).RaisesIn fun w' => FailedFrom w w' f args := by
  have careful {α : Type} {a : Entry H α} {f : Function} {args : List Argument}
      (ha : Careful a) : (a w).RaisesIn fun w' => FailedFrom w w' f args :=
    (ha w).mono fun _ => .untouched
  cases hs with
  | getVersion => exact raisesIn_answer (careful (.of_checks .bridge))
  | isVirtualThread h => trivial
  | newGlobalRef h => exact raisesIn_answer (careful (careful_newGlobalRef h))
  | deleteGlobalRef h => exact raisesIn_answer (careful (careful_deleteGlobal _ _ h))
  | newWeakGlobalRef h => exact raisesIn_answer (careful (careful_newWeakGlobalRef h))
  | deleteWeakGlobalRef h => exact raisesIn_answer (careful (careful_deleteGlobal _ _ h))
  | newLocalRef h => exact raisesIn_answer (careful (careful_newLocalRef h))
  | deleteLocalRef h => exact raisesIn_answer (careful (careful_deleteLocalRef h))
  | pushLocalFrame n => exact raisesIn_answer (careful (careful_pushLocalFrame n))
  | popLocalFrame h =>
    exact raisesIn_answer ((popLocalFrame_raisesIn h w).mono fun _ => .popped)
  | ensureLocalCapacity n => exact raisesIn_answer (careful (careful_ensureLocalCapacity n))
  | isSameObject h h' => exact raisesIn_answer (careful (.of_checks (.isSameObject h h')))
  | getObjectRefType h => exact raisesIn_answer (careful (.of_checks (.getObjectRefType h)))
  | throw h => exact raisesIn_answer (careful (careful_throw h))
  | exceptionOccurred => exact raisesIn_answer (careful careful_exceptionOccurred)
  | exceptionClear => trivial
  | exceptionCheck => exact raisesIn_answer (careful (.of_checks .exceptionCheck))
  | fatalError message => exact raisesIn_answer (careful (.of_checks (.fatalError message)))
  | getSuperclass h => exact raisesIn_answer (careful (careful_getSuperclass h))
  | isAssignableFrom h h' => exact raisesIn_answer (careful (.of_checks (.isAssignableFrom h h')))
  | getObjectClass h => exact raisesIn_answer (careful (careful_getObjectClass h))
  | isInstanceOf h h' => exact raisesIn_answer (careful (.of_checks (.isInstanceOf h h')))
  | getField mode k h id =>
    cases mode with
    | perObject => exact raisesIn_answer (careful (careful_getInstanceField k h id))
    | static => cases hf
  | setField mode k h id value =>
    cases mode with
    | perObject => exact raisesIn_answer (careful (careful_setInstanceField h id value))
    | static => cases hf
  | newString source n => exact raisesIn_answer (careful (careful_newString source n))
  | getStringLength h => exact raisesIn_answer (careful (.of_checks (.getStringLength h)))
  | getStringChars h present => exact raisesIn_answer (careful (careful_getStringChars h))
  | releaseStringChars h a => exact raisesIn_answer (careful (NeverRaises.releaseBuffer a).careful)
  | newStringUtf bytes => exact raisesIn_answer (careful (careful_newStringUtf bytes))
  | getStringUtfLength h => exact raisesIn_answer (careful (.of_checks (.getStringUtfLength h)))
  | getStringUtfLengthAsLong h =>
    exact raisesIn_answer (careful (.of_checks (.getStringUtfLengthAsLong h)))
  | getStringUtfChars h present => exact raisesIn_answer (careful (careful_getStringUtfChars h))
  | releaseStringUtfChars h a =>
    exact raisesIn_answer (careful (NeverRaises.releaseBuffer a).careful)
  | getStringRegion h start n present =>
    exact raisesIn_answer (careful (.of_checks (.getStringRegion h start n present)))
  | getStringUtfRegion h start n present =>
    exact raisesIn_answer (careful (.of_checks (.getStringUtfRegion h start n present)))
  | getStringCritical h present => exact raisesIn_answer (careful (careful_getStringChars h))
  | releaseStringCritical h a =>
    exact raisesIn_answer (careful (NeverRaises.releaseBuffer a).careful)
  | getArrayLength h => exact raisesIn_answer (careful (.of_checks (.getArrayLength h)))
  | newObjectArray n element initial =>
    exact raisesIn_answer (careful (careful_newObjectArray n element initial))
  | getObjectArrayElement h i => exact raisesIn_answer (careful (careful_getObjectArrayElement h i))
  | setObjectArrayElement h i value =>
    exact raisesIn_answer (careful (careful_setObjectArrayElement h i value))
  | newArray type n => exact raisesIn_answer (careful (careful_newArray type n))
  | getArrayElements type h present => exact raisesIn_answer (careful (careful_getElements _ h))
  | releaseArrayElements type h a mode =>
    refine raisesIn_answer ((releaseElements_raisesIn _ h a mode w).mono fun w' hw => ?_)
    obtain hw | ⟨rfl, hw⟩ := hw
    · exact .untouched hw
    · exact .freed hw
  | getArrayRegion type h start n present =>
    exact raisesIn_answer (careful (.of_checks (.getArrayRegion type h start n present)))
  | setArrayRegion type h start n source =>
    exact raisesIn_answer (careful (careful_setArrayRegion type h start n source))
  | getPrimitiveArrayCritical h present =>
    exact raisesIn_answer (careful (careful_getElements _ h))
  | releasePrimitiveArrayCritical h a mode =>
    refine raisesIn_answer ((releaseElements_raisesIn _ h a mode w).mono fun w' hw => ?_)
    obtain hw | ⟨rfl, hw⟩ := hw
    · exact .untouched hw
    · exact .freedCritical hw
  | registerNatives h entries n =>
    exact raisesIn_answer (careful (careful_registerNatives h entries n))
  | unregisterNatives h => exact raisesIn_answer (careful (careful_unregisterNatives h))
  | monitorEnter h => exact raisesIn_answer (careful (careful_monitorEnter h))
  | monitorExit h => exact raisesIn_answer (careful (careful_monitorExit h))
  | fromReflectedMethod h => exact raisesIn_answer (careful (careful_fromReflectedMethod h))
  | fromReflectedField h => exact raisesIn_answer (careful (careful_fromReflectedField h))
  | toReflectedMethod h id isStatic =>
    exact raisesIn_answer (careful (careful_toReflectedMethod h id isStatic))
  | toReflectedField h id isStatic =>
    exact raisesIn_answer (careful (careful_toReflectedField h id isStatic))
  | throwNew | exceptionDescribe | findClass | allocObject | newObject | getMethodId
  | callVirtual | callNonvirtual | callStatic | getFieldId => cases hf

/-! ## Calls -/

section Contain

variable {name : String} {failure answer : Answer} {body : Entry H Answer} {w w₁ w' : World H}

/-- All that the guard adds to a failure is a new throwable. -/
theorem untouched_contain_error {e : EntryError} (hbody : body w = .error e w₁)
    (hcall : (contain name failure body w : Outcome H ε Answer) = .ok answer w') :
    e.IsRaised ∧ answer = failure ∧ Untouched w₁ w' := by
  have hkeeps := keepsUntouched_throwable (ε := ε) e w₁
  unfold contain at hcall
  rw [hbody] at hcall
  obtain ⟨o, w₂, hthrow, hrest⟩ := Action.of_bind_ok hcall
  rw [hthrow] at hkeeps
  cases hrest
  refine ⟨fun v hv => ?_, rfl, hkeeps.trans (untouched_updatePending w₂ _)⟩
  rw [hv] at hthrow
  cases hthrow

theorem untouched_contain_panic {m : Option String} (hbody : body w = .panic m w₁)
    (hcall : (contain name failure body w : Outcome H ε Answer) = .ok answer w') :
    answer = failure ∧ Untouched w₁ w' := by
  unfold contain at hcall
  rw [hbody] at hcall
  cases hcall
  exact ⟨rfl, untouched_raised w₁ _⟩

end Contain

/-- A function that fails on its own leaves the throwable of its fault pending. -/
theorem callFunction_fails {call : Invoker H} {f : Function} {args : List Argument} {w w₁ : World H}
    {e : EntryError} {fault : GuestFault} (ha : w.attachment.isSome = true)
    (he : e.surface = .fault fault) (hbody : perform call f args w = .error e w₁) :
    (callFunction call (ownEnv w) f args w : Outcome H ε Answer) =
      .ok (.plain f.failure) (w₁.raised fault) := by
  rw [callFunction_own ha call]
  unfold contain
  rw [hbody]
  show (Entry.throwable e >>= _ : Action H ε Answer) w₁ = _
  rw [Entry.throwable, he]
  rfl

/-- A function in which a throwable is thrown leaves that pending. -/
theorem callFunction_throws {call : Invoker H} {f : Function} {args : List Argument} {w w₁ : World H}
    {o : ObjectRef} (ha : w.attachment.isSome = true)
    (hbody : perform call f args w = .error (.thrown o) w₁) :
    (callFunction call (ownEnv w) f args w : Outcome H ε Answer) =
      .ok (.plain f.failure) (w₁.setPending o) := by
  rw [callFunction_own ha call]
  unfold contain
  rw [hbody]
  rfl

/-- A call that raises leaves references, buffers, arrays and fields as they were, apart from a
frame that was closed and a buffer that was freed on the way. -/
theorem failed_call_leaks_nothing (call : Invoker H) (env : Option Env) {f : Function}
    {args : List Argument} (hs : Shaped f args) (hf : f.runsGuest = false) {w w' : World H}
    {answer : Answer} (hraises : (perform call f args w).Raises)
    (hcall : (callFunction call env f args w : Outcome H ε Answer) = .ok answer w') :
    answer = .plain f.failure ∧ FailedFrom w w' f args := by
  have hfails := perform_raisesIn call hs hf w
  obtain ⟨_, w₀, henv, hcontain⟩ := Action.of_bind_ok hcall
  obtain rfl : w₀ = w := by
    have := returns_checkEnv (ε := ε) env w
    rw [henv] at this
    exact this
  cases hbody : perform call f args w₀ with
  | error e w₁ =>
    rw [hbody] at hfails
    obtain ⟨he, hanswer, hguard⟩ := untouched_contain_error hbody hcontain
    exact ⟨hanswer, (hfails he).trans hguard⟩
  | panic m w₁ =>
    rw [hbody] at hfails
    obtain ⟨hanswer, hguard⟩ := untouched_contain_panic hbody hcontain
    exact ⟨hanswer, FailedFrom.trans hfails hguard⟩
  | ok a w₁ =>
    rw [hbody] at hraises
    exact hraises.elim
  | halt r w₁ =>
    rw [hbody] at hraises
    exact hraises.elim

/-- An attached thread that was handed a buffer of two bytes. -/
def bufferHolder : World Unit :=
  ({ (World.bare World.defaultCallDepth .growing ()).install .default with
    bridge := some { Bridge.empty .default with buffers := ⟨[(16, ⟨2, [1, 2]⟩)], [], 2, 64⟩ } } :
    World Unit).setAttachment (some ⟨0, .empty 16, .empty⟩)

/-- The buffer is released, but there is no array for its bytes. -/
theorem failed_release_leaks_nothing :
    ∃ w', (callFunction (fun _ _ _ => Action.halt .outOfFuel) (ownEnv bufferHolder)
        .releasePrimitiveArrayCritical [.handle .null, .buffer 16, .primitive (.int 0)]
        bufferHolder : Outcome Unit Empty Answer) = .ok (.plain .nothing) w' ∧
      FailedFrom bufferHolder w' .releasePrimitiveArrayCritical
        [.handle .null, .buffer 16, .primitive (.int 0)] := by
  have hbody : perform (fun _ _ _ => Action.halt .outOfFuel) .releasePrimitiveArrayCritical
      [.handle .null, .buffer 16, .primitive (.int 0)] bufferHolder =
      .error (.fault ⟨.nullPointer, "array is null"⟩)
        { bufferHolder with bridge := some { Bridge.empty .default with
            buffers := ⟨[], [16], 0, 64⟩ } } := rfl
  obtain ⟨w', hcall, -⟩ := callFunction_raised (ε := Empty) rfl rfl
    (EntryError.isRaised_fault _) hbody
  exact ⟨w', hcall, (failed_call_leaks_nothing _ _ (.releasePrimitiveArrayCritical ..) rfl
    (by rw [hbody]; trivial) hcall).2⟩

end GuestBoundary.Interface
