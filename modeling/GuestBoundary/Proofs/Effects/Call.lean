import GuestBoundary.Interface.Call
import GuestBoundary.Proofs.Effects.Interface

/-!
# What a call of the interface keeps

A call is `Shaped` if it passes a function what the function takes.  Most functions are `isPlain`:
all that they do is made of steps for which there are `EntryRules`.  Apart from the three functions
that work on frames and local references themselves (`Function.isNeutral`), a call keeps every
relation that is `EntryNeutral`: the function does, and so does the guard around it, which leaves
the throwable of an error or a panic pending.  Where a run may end on the way, it finishes as
relations that are `EntryFinishNeutral` say.
-/

namespace GuestBoundary.Interface

open Entry

variable {H ε : Type} {R : World H → World H → Prop}

/-! ## Shapes -/

/-- A function is passed as many arguments as it takes, each of its sort. -/
inductive Shaped : Function → List Argument → Prop
  | getVersion : Shaped .getVersion []
  | isVirtualThread h : Shaped .isVirtualThread [.handle h]
  | newGlobalRef h : Shaped .newGlobalRef [.handle h]
  | deleteGlobalRef h : Shaped .deleteGlobalRef [.handle h]
  | newWeakGlobalRef h : Shaped .newWeakGlobalRef [.handle h]
  | deleteWeakGlobalRef h : Shaped .deleteWeakGlobalRef [.handle h]
  | newLocalRef h : Shaped .newLocalRef [.handle h]
  | deleteLocalRef h : Shaped .deleteLocalRef [.handle h]
  | pushLocalFrame c : Shaped .pushLocalFrame [.primitive (.int c)]
  | popLocalFrame h : Shaped .popLocalFrame [.handle h]
  | ensureLocalCapacity c : Shaped .ensureLocalCapacity [.primitive (.int c)]
  | isSameObject a b : Shaped .isSameObject [.handle a, .handle b]
  | getObjectRefType h : Shaped .getObjectRefType [.handle h]
  | throw h : Shaped .throw [.handle h]
  | throwNew h message : Shaped .throwNew [.handle h, .text message]
  | exceptionOccurred : Shaped .exceptionOccurred []
  | exceptionDescribe : Shaped .exceptionDescribe []
  | exceptionClear : Shaped .exceptionClear []
  | exceptionCheck : Shaped .exceptionCheck []
  | fatalError message : Shaped .fatalError [.text message]
  | findClass name : Shaped .findClass [.text name]
  | getSuperclass h : Shaped .getSuperclass [.handle h]
  | isAssignableFrom a b : Shaped .isAssignableFrom [.handle a, .handle b]
  | getObjectClass h : Shaped .getObjectClass [.handle h]
  | isInstanceOf a b : Shaped .isInstanceOf [.handle a, .handle b]
  | allocObject h : Shaped .allocObject [.handle h]
  | newObject h id slots : Shaped .newObject [.handle h, .member id, .arguments slots]
  | getMethodId mode h name descriptor :
    Shaped (.getMethodId mode) [.handle h, .text name, .text descriptor]
  | callVirtual k h id slots :
    Shaped (.call .virtual k) [.handle h, .member id, .arguments slots]
  | callNonvirtual k h c id slots :
    Shaped (.call .nonvirtual k) [.handle h, .handle c, .member id, .arguments slots]
  | callStatic k c id slots : Shaped (.call .static k) [.handle c, .member id, .arguments slots]
  | getFieldId mode h name descriptor :
    Shaped (.getFieldId mode) [.handle h, .text name, .text descriptor]
  | getField mode k h id : Shaped (.getField mode k) [.handle h, .member id]
  | setField mode k h id value : Shaped (.setField mode k) [.handle h, .member id, value]
  | newString units c : Shaped .newString [.source units, .primitive (.int c)]
  | getStringLength h : Shaped .getStringLength [.handle h]
  | getStringChars h present : Shaped .getStringChars [.handle h, .copyFlag present]
  | releaseStringChars h a : Shaped .releaseStringChars [.handle h, .buffer a]
  | newStringUtf bytes : Shaped .newStringUtf [.text bytes]
  | getStringUtfLength h : Shaped .getStringUtfLength [.handle h]
  | getStringUtfLengthAsLong h : Shaped .getStringUtfLengthAsLong [.handle h]
  | getStringUtfChars h present : Shaped .getStringUtfChars [.handle h, .copyFlag present]
  | releaseStringUtfChars h a : Shaped .releaseStringUtfChars [.handle h, .buffer a]
  | getStringRegion h start c present : Shaped .getStringRegion
      [.handle h, .primitive (.int start), .primitive (.int c), .target present]
  | getStringUtfRegion h start c present : Shaped .getStringUtfRegion
      [.handle h, .primitive (.int start), .primitive (.int c), .target present]
  | getStringCritical h present : Shaped .getStringCritical [.handle h, .copyFlag present]
  | releaseStringCritical h a : Shaped .releaseStringCritical [.handle h, .buffer a]
  | getArrayLength h : Shaped .getArrayLength [.handle h]
  | newObjectArray c element initial :
    Shaped .newObjectArray [.primitive (.int c), .handle element, .handle initial]
  | getObjectArrayElement h i : Shaped .getObjectArrayElement [.handle h, .primitive (.int i)]
  | setObjectArrayElement h i value :
    Shaped .setObjectArrayElement [.handle h, .primitive (.int i), .handle value]
  | newArray type c : Shaped (.newArray type) [.primitive (.int c)]
  | getArrayElements type h present :
    Shaped (.getArrayElements type) [.handle h, .copyFlag present]
  | releaseArrayElements type h a mode :
    Shaped (.releaseArrayElements type) [.handle h, .buffer a, .primitive (.int mode)]
  | getArrayRegion type h start c present : Shaped (.getArrayRegion type)
      [.handle h, .primitive (.int start), .primitive (.int c), .target present]
  | setArrayRegion type h start c bytes : Shaped (.setArrayRegion type)
      [.handle h, .primitive (.int start), .primitive (.int c), .source bytes]
  | getPrimitiveArrayCritical h present :
    Shaped .getPrimitiveArrayCritical [.handle h, .copyFlag present]
  | releasePrimitiveArrayCritical h a mode :
    Shaped .releasePrimitiveArrayCritical [.handle h, .buffer a, .primitive (.int mode)]
  | registerNatives h entries c :
    Shaped .registerNatives [.handle h, .natives entries, .primitive (.int c)]
  | unregisterNatives h : Shaped .unregisterNatives [.handle h]
  | monitorEnter h : Shaped .monitorEnter [.handle h]
  | monitorExit h : Shaped .monitorExit [.handle h]
  | fromReflectedMethod h : Shaped .fromReflectedMethod [.handle h]
  | fromReflectedField h : Shaped .fromReflectedField [.handle h]
  | toReflectedMethod h id isStatic :
    Shaped .toReflectedMethod [.handle h, .member id, .primitive (.boolean isStatic)]
  | toReflectedField h id isStatic :
    Shaped .toReflectedField [.handle h, .member id, .primitive (.boolean isStatic)]

/-- The argument that is put into a field. -/
def storedArgument? : Function → List Argument → Option Argument
  | .setField _ _, [_, _, value] => some value
  | _, _ => none

/-- Whether the function leaves frames alone and deletes no local reference. -/
def Function.isNeutral : Function → Bool
  | pushLocalFrame | popLocalFrame | deleteLocalRef => false
  | _ => true

/-- Whether the function also leaves the pending throwable alone, unless it raises. -/
def Function.isPlain : Function → Bool
  | throw | throwNew | exceptionDescribe | exceptionClear => false
  | f => f.isNeutral

/-- Whether the function may run guest code: constructors, the initialization of a class, or the
method that it calls. -/
def Function.runsGuest : Function → Bool
  | throwNew | exceptionDescribe | findClass | allocObject | newObject | getMethodId _ | call _ _
  | getFieldId _ | getField .static _ | setField .static _ => true
  | _ => false

/-! ## Functions -/

/-- Everything that a function does that runs no guest code is made of steps that have rules, apart
from entering a monitor; native code has to pass a value where a field is written. -/
theorem obeys_perform_of_not_runsGuest
    {P : ∀ {α : Type}, World H → Outcome H EntryError α → Prop} (k : StepRules P)
    {call : Invoker H} {f : Function} {args : List Argument} (hs : Shaped f args)
    (hf : f.isPlain = true) (hg : f.runsGuest = false) (hm : f ≠ .monitorEnter)
    (hvalue : ∀ value, storedArgument? f args = some value → Obeys P (passed value)) :
    Obeys P (perform call f args) := by
  cases hs with
  | getVersion => exact k.checks (Checks.bridge.bind fun _ => .pure _)
  | isVirtualThread h => exact k.checks (.pure _)
  | newGlobalRef h => exact k.map (k.newGlobalRef h)
  | deleteGlobalRef h => exact k.map (k.deleteGlobal _ _ h)
  | newWeakGlobalRef h => exact k.map (k.newWeakGlobalRef h)
  | deleteWeakGlobalRef h => exact k.map (k.deleteGlobal _ _ h)
  | newLocalRef h => exact k.map (k.newLocalRef h)
  | ensureLocalCapacity c => exact k.map (k.ensureLocalCapacity c)
  | isSameObject a b => exact k.map (k.checks (.isSameObject a b))
  | getObjectRefType h => exact k.map (k.checks (.getObjectRefType h))
  | exceptionOccurred => exact k.map k.exceptionOccurred
  | exceptionCheck => exact k.map (k.checks .exceptionCheck)
  | fatalError message => exact k.map (k.checks (.fatalError message))
  | getSuperclass h => exact k.map (k.getSuperclass h)
  | isAssignableFrom a b => exact k.map (k.checks (.isAssignableFrom a b))
  | getObjectClass h => exact k.map (k.getObjectClass h)
  | isInstanceOf a b => exact k.map (k.checks (.isInstanceOf a b))
  | getField mode kind h id =>
    cases mode with
    | perObject => exact k.map (k.getInstanceField kind h id)
    | static => cases hg
  | setField mode kind h id value =>
    cases mode with
    | perObject => exact k.map (k.setInstanceField h id (hvalue value rfl))
    | static => cases hg
  | newString units c => exact k.map (k.newString units c)
  | getStringLength h => exact k.map (k.checks (.getStringLength h))
  | getStringChars h present => exact k.map (k.getStringChars h)
  | releaseStringChars h a => exact k.map (k.releaseBuffer a)
  | newStringUtf bytes => exact k.map (k.newStringUtf bytes)
  | getStringUtfLength h => exact k.map (k.checks (.getStringUtfLength h))
  | getStringUtfLengthAsLong h => exact k.map (k.checks (.getStringUtfLengthAsLong h))
  | getStringUtfChars h present => exact k.map (k.getStringUtfChars h)
  | releaseStringUtfChars h a => exact k.map (k.releaseBuffer a)
  | getStringRegion h start c present =>
    exact k.map (k.checks (.getStringRegion h start c present))
  | getStringUtfRegion h start c present =>
    exact k.map (k.checks (.getStringUtfRegion h start c present))
  | getStringCritical h present => exact k.map (k.getStringChars h)
  | releaseStringCritical h a => exact k.map (k.releaseBuffer a)
  | getArrayLength h => exact k.map (k.checks (.getArrayLength h))
  | newObjectArray c element initial => exact k.map (k.newObjectArray c element initial)
  | getObjectArrayElement h i => exact k.map (k.getObjectArrayElement h i)
  | setObjectArrayElement h i value => exact k.map (k.setObjectArrayElement h i value)
  | newArray type c => exact k.map (k.newArray type c)
  | getArrayElements type h present => exact k.map (k.getElements _ h)
  | releaseArrayElements type h a mode => exact k.map (k.releaseElements _ h a mode)
  | getArrayRegion type h start c present =>
    exact k.map (k.checks (.getArrayRegion type h start c present))
  | setArrayRegion type h start c bytes => exact k.map (k.setArrayRegion type h start c bytes)
  | getPrimitiveArrayCritical h present => exact k.map (k.getElements _ h)
  | releasePrimitiveArrayCritical h a mode => exact k.map (k.releaseElements _ h a mode)
  | registerNatives h entries c => exact k.map (k.registerNatives h entries c)
  | unregisterNatives h => exact k.map (k.unregisterNatives h)
  | monitorExit h => exact k.map (k.monitorExit h)
  | fromReflectedMethod h => exact k.map (k.fromReflectedMethod h)
  | fromReflectedField h => exact k.map (k.fromReflectedField h)
  | toReflectedMethod h id isStatic => exact k.map (k.toReflectedMethod h id isStatic)
  | toReflectedField h id isStatic => exact k.map (k.toReflectedField h id isStatic)
  | monitorEnter => exact absurd rfl hm
  | throw | throwNew | exceptionDescribe | exceptionClear | deleteLocalRef | pushLocalFrame
  | popLocalFrame => cases hf
  | findClass | allocObject | newObject | getMethodId | callVirtual | callNonvirtual | callStatic
  | getFieldId => cases hg

/-- Everything that a function does is made of steps that have rules, if it is plain. -/
theorem obeys_perform {G : ∀ {α : Type}, Guest H α → Prop}
    {P : ∀ {α : Type}, World H → Outcome H EntryError α → Prop} (k : EntryRules G P)
    {call : Invoker H} (hcall : CallsRelated (fun a _ => G a) call call) {f : Function}
    {args : List Argument} (hs : Shaped f args) (hf : f.isPlain = true)
    (hvalue : ∀ value, storedArgument? f args = some value → Obeys P (passed value)) :
    Obeys P (perform call f args) := by
  have hstep : f.runsGuest = false → f ≠ .monitorEnter → Obeys P (perform call f args) :=
    fun hg hm => obeys_perform_of_not_runsGuest k.toStepRules hs hf hg hm hvalue
  have hrun : ∀ m receiver args, Obeys P (Entry.guest (call m receiver args)) :=
    fun m receiver args => k.guest (hcall m receiver args)
  cases hs with
  | findClass name => exact k.map (k.findClass hcall name)
  | allocObject h => exact k.map (k.allocObject hcall h)
  | newObject h id slots => exact k.map (k.newObject hcall h id slots)
  | getMethodId mode h name descriptor =>
    exact k.map (k.getMethodId hcall mode h name descriptor)
  | callVirtual kind h id slots =>
    exact k.map (k.andThen (k.callMethod hrun _ id slots) fun v => k.returned kind v)
  | callNonvirtual kind h c id slots =>
    exact k.map (k.andThen (k.callMethod hrun _ id slots) fun v => k.returned kind v)
  | callStatic kind c id slots =>
    exact k.map (k.andThen (k.callMethod hrun _ id slots) fun v => k.returned kind v)
  | getFieldId mode h name descriptor => exact k.map (k.getFieldId hcall mode h name descriptor)
  | getField mode kind h id =>
    cases mode with
    | perObject => exact hstep rfl nofun
    | static => exact k.map (k.getStaticField hcall kind h id)
  | setField mode kind h id value =>
    cases mode with
    | perObject => exact hstep rfl nofun
    | static => exact k.map (k.setStaticField hcall h id (hvalue value rfl))
  | monitorEnter h => exact k.map (k.monitorEnter h)
  | throw | throwNew | exceptionDescribe | exceptionClear | deleteLocalRef | pushLocalFrame
  | popLocalFrame => cases hf
  | _ => exact hstep rfl nofun

section Finishes

variable {Q : World H → World H → Prop} (n : EntryFinishNeutral R Q) {call : Invoker H}
include n

theorem finishes_passed (value : Argument) : Finishes R Q (passed value : Entry H Value) := by
  have p := n.toComposes
  unfold passed
  split
  · exact Finishes.bind p (.read p _) fun o => .pure p _
  · exact .pure p _
  · exact .halt p _

/-! ### Functions that change what is pending -/

theorem finishes_throw (h : Handle) : Finishes R Q (throw h : Entry H Unit) := by
  have k := n.rules
  refine k.after (.require h _) fun o => k.after .world fun w => ?_
  split
  · exact n.updatePending _
  · exact k.checks (.fault _ _)

theorem finishes_throwNew (hcall : CallsFinish R Q call) (h : Handle)
    (message : Option (List UInt8)) : Finishes R Q (throwNew call h message) := by
  have k := n.rules
  refine k.after (.classOf h) fun c => k.andThen (k.newThrowable hcall.related c _) fun o => ?_
  exact n.updatePending _

theorem finishes_exceptionDescribe (hcall : CallsFinish R Q call) :
    Finishes R Q (exceptionDescribe call) := by
  have p := n.toComposes
  refine Finishes.bind p (.read p _) fun pending => ?_
  cases pending with
  | none => exact .pure p ()
  | some o =>
    have hreport : Finishes R Q (report call o) := n.congruence.report hcall.related o
    refine Finishes.bind p (n.updatePending _) fun _ => ?_
    exact Finishes.bind p (.discard p (n.holding _ hreport.result)) fun _ => n.updatePending _

/-- Whatever such a function does finishes as the relations say. -/
theorem finishes_perform (hcall : CallsFinish R Q call) {f : Function} {args : List Argument}
    (hs : Shaped f args) (hf : f.isNeutral = true) : Finishes R Q (perform call f args) := by
  have p := n.toComposes
  by_cases hplain : f.isPlain = true
  · exact obeys_perform n.rules hcall.related hs hplain fun value _ => finishes_passed n value
  · cases hs with
    | throw h => exact Finishes.bind p (finishes_throw n h) fun _ => .pure p _
    | throwNew h message =>
      exact Finishes.bind p (finishes_throwNew n hcall h message) fun _ => .pure p _
    | exceptionDescribe =>
      exact Finishes.bind p (finishes_exceptionDescribe n hcall) fun _ => .pure p _
    | exceptionClear => exact Finishes.bind p (n.updatePending _) fun _ => .pure p _
    | _ => first | exact absurd rfl hplain | cases hf

/-! ### The guard, where runs may end -/

theorem finishes_checkEnv (env : Option Env) : Finishes R Q (checkEnv env : Action H ε Unit) := by
  have p := n.toComposes
  unfold checkEnv
  split
  · exact .halt p _
  · refine Finishes.bind p (.world p) fun w => ?_
    split
    · exact .halt p _
    · split
      · exact .pure p ()
      · exact .halt p _

theorem finishes_raise (f : GuestFault) : Finishes R Q (raise f : Action H ε Unit) :=
  .update fun w => n.trans (n.sameSide (w.sameSide_materialize f)) (n.pending (w.materialize f).2 _)

/-- An error or a panic leaves its throwable pending, or the run is over. -/
theorem finishes_guarded (env : Option Env) (name : String) {failure : Answer}
    {body : Entry H Answer} (hbody : Finishes R Q body) :
    Finishes R Q (guarded env name failure body : Action H ε Answer) := by
  have p := n.toComposes
  refine Finishes.bind p (finishes_checkEnv n env) fun _ w => ?_
  have h := hbody w
  unfold contain
  cases hr : body w with
  | ok a w' =>
    rw [hr] at h
    exact h
  | error e w' =>
    rw [hr] at h
    have hcaught : Finishes R Q (do
        let o ← Entry.throwable e
        Action.update fun w => w.setPending o
        return failure : Action H ε Answer) :=
      Finishes.bind p (n.throwable e) fun o =>
        Finishes.bind p (n.updatePending _) fun _ => .pure p failure
    exact (hcaught w').after p h
  | panic m w' =>
    rw [hr] at h
    have hraised : Finishes R Q (do
        raise ⟨.internal, name ++ ": " ++ m.getD unknownPanic⟩
        return failure : Action H ε Answer) :=
      Finishes.bind p (finishes_raise n _) fun _ => .pure p failure
    exact (hraised w').after p h
  | halt r w' =>
    rw [hr] at h
    exact h

end Finishes

variable (n : EntryNeutral R) {call : Invoker H}
include n

theorem keeps_perform (hcall : CallsKeep R call) {f : Function} {args : List Argument}
    (hs : Shaped f args) (hf : f.isNeutral = true) : Keeps R (perform call f args) :=
  finishes_true_iff.1 (finishes_perform n.finishNeutral hcall.finish hs hf)

/-! ## The guard -/

omit n in
theorem returns_checkEnv (env : Option Env) (w : World H) :
    (checkEnv env w : Outcome H ε Unit).Returns fun _ w' => w' = w := by
  cases env with
  | none => trivial
  | some env =>
    show Outcome.Returns _ ((if env.owner ≠ w.thread.id then _ else _ : Action H ε Unit) w)
    split
    · trivial
    · split
      · rfl
      · trivial

omit n in
theorem returns_guarded {P : Answer → World H → Prop} {w : World H} (env : Option Env)
    {name : String} {failure : Answer} {body : Entry H Answer}
    (h : (contain name failure body w : Outcome H ε Answer).Returns P) :
    (guarded env name failure body w : Outcome H ε Answer).Returns P :=
  (returns_checkEnv env w).bind fun _ _ hw => hw ▸ h

section Contain

variable {P : Answer → World H → Prop} {w w' : World H} (name : String) {failure : Answer}
  {body : Entry H Answer}

omit n in
theorem returns_contain_ok {a : Answer} (hb : body w = .ok a w') (h : P a w') :
    (contain name failure body w : Outcome H ε Answer).Returns P := by
  unfold contain
  rw [hb]
  exact h

/-- An error leaves its throwable pending, and the function answers its failure. -/
theorem returns_contain_error {e : EntryError} (hb : body w = .error e w')
    (h : ∀ w'', R w' w'' → P failure w'') :
    (contain name failure body w : Outcome H ε Answer).Returns P := by
  have hleft : ∀ f, R w' ((w'.materialize f).2.setPending (w'.materialize f).1) := fun f =>
    n.trans (n.sameSide (w'.sameSide_materialize f)) (n.pending _ _)
  unfold contain
  rw [hb]
  cases e with
  | thrown o => exact h _ (n.pending _ _)
  | contract v => trivial
  | fault f => exact h _ (hleft f)
  | alloc e => exact h _ (hleft _)
  | conversion e => exact h _ (hleft _)
  | bind e => exact h _ (hleft _)

/-- So does a panic. -/
theorem returns_contain_panic {m : Option String} (hb : body w = .panic m w')
    (h : ∀ w'', R w' w'' → P failure w'') :
    (contain name failure body w : Outcome H ε Answer).Returns P := by
  unfold contain
  rw [hb]
  exact h _ (n.trans (n.sameSide (w'.sameSide_materialize _)) (n.pending _ _))

omit n in
/-- A broken rule ends the run. -/
theorem returns_contain_contract {v : ContractViolation} (hb : body w = .error (.contract v) w') :
    (contain name failure body w : Outcome H ε Answer).Returns P := by
  unfold contain
  rw [hb]
  trivial

omit n in
theorem returns_contain_halt {r : Halt} (hb : body w = .halt r w') :
    (contain name failure body w : Outcome H ε Answer).Returns P := by
  unfold contain
  rw [hb]
  trivial

theorem returns_contain (hbody : Keeps R body) (w : World H) :
    (contain name failure body w : Outcome H ε Answer).Returns fun _ w' => R w w' := by
  have h := hbody w
  cases hr : body w with
  | ok a w' =>
    rw [hr] at h
    exact returns_contain_ok name hr h
  | error e w' =>
    rw [hr] at h
    exact returns_contain_error n name hr fun _ => n.trans h
  | panic m w' =>
    rw [hr] at h
    exact returns_contain_panic n name hr fun _ => n.trans h
  | halt r w' => exact returns_contain_halt name hr

end Contain

theorem returns_callFunction (hcall : CallsKeep R call) (env : Option Env) {f : Function}
    {args : List Argument} (hs : Shaped f args) (hf : f.isNeutral = true) (w : World H) :
    (callFunction call env f args w : Outcome H ε Answer).Returns fun _ w' => R w w' :=
  returns_guarded env (returns_contain n _ (keeps_perform n hcall hs hf) w)

theorem returns_callStub (env : Option Env) (name : String) (w : World H) :
    (callStub env name w : Outcome H ε Answer).Returns fun _ w' => R w w' :=
  returns_guarded env (returns_contain n _ (n.fault _ _) w)

end GuestBoundary.Interface
