import GuestBoundary.Proofs.Effects.Congruence
import GuestBoundary.Proofs.Exceptions.Panics
import GuestBoundary.Proofs.Heap.Monitors

/-!
# What a call of the interface waits for

A thread waits for the monitor of an object that another thread owns, or for the end of an
initialization that another thread has begun.  A function of the interface comes to wait in three
ways (`Awaits`): it enters the monitor of its object; it initializes a class itself
(`Initializes`), and the first class on the chain that is not untouched is another thread's; or a
method that it calls waits.  The third way is told from the first two by what becomes of the function
if its calls do something else where they would wait (`Guest.insteadOf`).
-/

namespace GuestBoundary

variable {H ε δ α β : Type} {x : Awaited} {w u : World H}

/-! ## Ends of runs -/

theorem Action.of_mapError_halt {a : Action H ε α} {g : ε → δ} {r : Halt}
    (h : a.mapError g w = .halt r u) : a w = .halt r u := by
  unfold Action.mapError at h
  cases ha : a w <;> rw [ha] at h <;> cases h
  rfl

theorem Action.of_result_halt {a : Action H ε α} {r : Halt}
    (h : (a.result w : Outcome H δ _) = .halt r u) : a w = .halt r u := by
  unfold Action.result at h
  cases ha : a w <;> rw [ha] at h <;> cases h
  rfl

theorem Action.of_holding_halt {a : Action H ε α} {objects : List ObjectRef} {r : Halt}
    (h : Action.holding objects a w = .halt r u) :
    a { w with held := objects ++ w.held } = .halt r u := by
  unfold Action.holding Action.andFinally at h
  cases ha : a { w with held := objects ++ w.held } <;> rw [ha] at h <;> cases h
  rfl

/-! ## Actions that do not wait -/

/-- The run is not over because the thread waits for the thing. -/
def Outcome.Unblocked (x : Awaited) (o : Outcome H ε α) : Prop := ∀ u, o ≠ .halt (.deadlock x) u

namespace Outcome.Unblocked

theorem ok (y : α) (w : World H) : (.ok y w : Outcome H ε α).Unblocked x := fun _ => nofun

theorem error (e : ε) (w : World H) : (.error e w : Outcome H ε α).Unblocked x := fun _ => nofun

theorem panic (m : Option String) (w : World H) : (.panic m w : Outcome H ε α).Unblocked x :=
  fun _ => nofun

theorem halt {r : Halt} (hr : r ≠ .deadlock x) (w : World H) :
    (.halt r w : Outcome H ε α).Unblocked x := by
  intro u h
  cases h
  exact hr rfl

end Outcome.Unblocked

/-- The action never waits for the thing. -/
def NeverAwaits (x : Awaited) (a : Action H ε α) : Prop := ∀ w, (a w).Unblocked x

namespace NeverAwaits

variable {a : Action H ε α} {f : α → Action H ε β}

theorem bind_at (ha : (a w).Unblocked x) (hf : ∀ y v, a w = .ok y v → (f y v).Unblocked x) :
    ((a >>= f) w).Unblocked x := by
  intro u h
  rcases Action.of_bind_halt h with h | ⟨y, v, hy, h⟩
  · exact ha u h
  · exact hf y v hy u h

theorem bind (ha : NeverAwaits x a) (hf : ∀ y, NeverAwaits x (f y)) : NeverAwaits x (a >>= f) :=
  fun w => bind_at (ha w) fun y v _ => hf y v

theorem pure (y : α) : NeverAwaits x (Pure.pure y : Action H ε α) := fun w => .ok y w

theorem update (f : World H → World H) : NeverAwaits x (Action.update f : Action H ε Unit) :=
  fun w => .ok () (f w)

theorem result (ha : NeverAwaits x a) :
    NeverAwaits x (a.result : Action H δ (Except ε α)) :=
  fun w u h => ha w u (Action.of_result_halt h)

theorem mapError (g : ε → δ) (ha : NeverAwaits x a) : NeverAwaits x (a.mapError g) :=
  fun w u h => ha w u (Action.of_mapError_halt h)

theorem holding (objects : List ObjectRef) (ha : NeverAwaits x a) :
    NeverAwaits x (Action.holding objects a) := fun _ u h => ha _ u (Action.of_holding_halt h)

theorem plain {a : Guest H α} (h : Plain a) : NeverAwaits x a := by
  intro w u hu
  have := h w
  rw [hu] at this
  cases this

theorem onAttachment (f : Attachment → Except EntryError (α × Attachment)) :
    NeverAwaits x (Entry.onAttachment f : Entry H α) := by
  intro w u h
  unfold Entry.onAttachment at h
  cases ha : w.attachment with
  | none =>
    rw [ha] at h
    cases h
  | some a =>
    cases hf : f a <;> simp only [ha, hf] at h <;> cases h

/-- The steps of functions of the interface do not wait. -/
theorem steps (x : Awaited) : StepRules (H := H) fun _ o => o.Unblocked x where
  checked {_ w _} h := by
    cases h with
    | ok y => exact .ok y w
    | error own => exact .error _ w
    | unbridged hnone => exact .halt (by nofun) w
  bind := bind_at
  afterwards ha hb := by
    refine bind_at (fun u h => ha u (Action.of_result_halt h)) fun r v _ => ?_
    refine bind_at (hb v) fun _ v' _ => ?_
    cases r with
    | ok y => exact .ok y v'
    | error e => exact .error e v'
  sameSide y _ := .ok y _
  bridged y _ _ := .ok y _
  unattached _ := .halt (by nofun) _
  create _ _ := .ok _ _
  ensure _ _ := .ok _ _
  plain h := (NeverAwaits.plain h).mapError _

end NeverAwaits

section Rows

variable {a : Action H ε α} {f : α → Action H ε β}

/-- Two actions in a row wait, of which the second one never does. -/
theorem deadlock_of_first (hf : ∀ y, NeverAwaits x (f y))
    (h : (a >>= f) w = .halt (.deadlock x) u) : a w = .halt (.deadlock x) u := by
  rcases Action.of_bind_halt h with h | ⟨y, v, -, h⟩
  · exact h
  · exact absurd h (hf y v u)

/-- Two actions in a row wait, of which the first one never does. -/
theorem deadlock_of_next (ha : NeverAwaits x a) (h : (a >>= f) w = .halt (.deadlock x) u) :
    ∃ y v, a w = .ok y v ∧ f y v = .halt (.deadlock x) u := by
  rcases Action.of_bind_halt h with h | hnext
  · exact absurd h (ha w u)
  · exact hnext

/-- An action waits after a check. -/
theorem Entry.Checks.deadlock_of_next {a : Entry H α} {f : α → Entry H β} (ha : Checks a)
    (h : (a >>= f) w = .halt (.deadlock x) u) :
    ∃ y, a w = .ok y w ∧ f y w = .halt (.deadlock x) u := by
  obtain ⟨y, v, hy, hnext⟩ := GuestBoundary.deadlock_of_next ((NeverAwaits.steps x).checks ha) h
  obtain rfl := ha.cases_ok hy
  exact ⟨y, hy, hnext⟩

end Rows

/-! ## Classes that another thread initializes -/

namespace World

variable {c d : ClassId} {cs : List ClassId}

/-- A thread does not wait for a class that it initializes itself. -/
theorem awaited?_of_claimed (hc : (w.classState c).init = .untouched)
    (h : (w.setInit c (.running w.thread.id)).awaited? cs = some d) : w.awaited? cs = some d := by
  induction cs with
  | nil => exact h
  | cons e cs ih =>
    rw [awaited?] at h ⊢
    by_cases he : e = c
    · subst he
      rw [init_setInit_self (lt_size_of_init_ne (by rw [hc]; nofun))] at h
      cases h.symm.trans (if_pos rfl)
    · rw [init_setInit_of_ne he] at h
      cases hinit : (w.classState e).init <;> rw [hinit] at h
      case untouched => exact ih h
      all_goals exact h

end World

namespace Guest

variable {call : Invoker H} {c : ClassId}

/-- The methods that are called never wait for the thing. -/
def CallsNeverAwait (x : Awaited) (call : Invoker H) : Prop :=
  ∀ m receiver args, NeverAwaits x (call m receiver args)

variable (hcall : CallsNeverAwait x call)
include hcall

theorem neverAwaits_runInitializer (r : Registry) (c : ClassId) :
    NeverAwaits x (runInitializer call r c) := by
  unfold runInitializer
  split
  · exact (NeverAwaits.update _).bind fun _ => (hcall _ _ _).bind fun _ => .pure _
  · exact .pure _

omit hcall in
theorem neverAwaits_noteInit (c : ClassId) (ended : Except ObjectRef Unit) :
    NeverAwaits x (noteInit c ended : Guest H Unit) := by
  cases ended with
  | ok _ => exact .update _
  | error thrown => exact (NeverAwaits.update _).bind fun _ v => .error thrown v

/-- If no method waits on the way, it is the initialization itself that waits. -/
theorem awaited?_of_initClassWithin {depth : Nat}
    (h : initClassWithin call depth c w = .halt (.deadlock x) u) :
    ∃ d, x = .initialization d ∧ w.awaited? (w.registry.chainWithin depth c) = some d := by
  induction depth generalizing c w with
  | zero => cases h
  | succ depth ih =>
    rw [initClassWithin_succ] at h
    rw [Registry.chainWithin, World.awaited?]
    cases hinit : (w.classState c).init with
    | done =>
      rw [hinit] at h
      cases h
    | failed =>
      rw [hinit] at h
      exact absurd h (NeverAwaits.plain (.throwFault _) w u)
    | running t =>
      rw [hinit] at h
      dsimp only at h ⊢
      split at h
      · cases h
      next hother =>
        cases h
        exact ⟨c, rfl, if_neg hother⟩
    | untouched =>
      rw [hinit] at h
      have hrun := Action.of_result_halt (deadlock_of_first (neverAwaits_noteInit c) h)
      rw [runInitializers_eq] at hrun
      have hsuper := deadlock_of_first (fun _ => neverAwaits_runInitializer hcall _ c) hrun
      unfold initSuper at hsuper
      cases hs : (w.registry.get c).superclass with
      | none =>
        rw [hs] at hsuper
        cases hsuper
      | some s =>
        rw [hs] at hsuper
        obtain ⟨d, rfl, hd⟩ := ih hsuper
        exact ⟨d, rfl, World.awaited?_of_claimed hinit hd⟩

theorem awaitedFor?_of_initClass (h : initClass call c w = .halt (.deadlock x) u) :
    ∃ d, x = .initialization d ∧ w.awaitedFor? c = some d :=
  awaited?_of_initClassWithin hcall h

omit hcall in
theorem initClass_of_allocate (h : allocate call c w = .halt (.deadlock x) u) :
    (w.registry.get c).isInstantiable = true ∧ initClass call c w = .halt (.deadlock x) u := by
  rw [allocate_eq] at h
  split at h
  next hconcrete => exact ⟨hconcrete, deadlock_of_first (fun _ => .plain (.newObject _ _)) h⟩
  · exact absurd h (NeverAwaits.plain (.throwFault _) w u)

/-- A constructor is called when the class has been initialized. -/
theorem initClass_of_constructWith {m : MethodRef} {args : List Value}
    (h : constructWith call c m args w = .halt (.deadlock x) u) :
    (w.registry.get c).isInstantiable = true ∧
      initClass call c { w with held := args.filterMap Value.object? ++ w.held } =
        .halt (.deadlock x) u := by
  refine initClass_of_allocate (deadlock_of_first (fun o => ?_) (Action.of_holding_halt h))
  exact ((((hcall _ _ _).bind fun _ => .pure _).holding _).bind fun _ => .pure _)

theorem initClass_of_newThrowable {message : Option String}
    (h : newThrowable call c message w = .halt (.deadlock x) u) :
    ∃ m y v, w.registry.isSubclass c CoreClass.throwable.id = true ∧
      Interface.messageArgument message w = .ok y v ∧
      resolveMethod c Method.constructorName "(Ljava/lang/String;)V" false v = .ok m v ∧
      (v.registry.get c).isInstantiable = true ∧
      initClass call c { v with held := [y].filterMap Value.object? ++ v.held } =
        .halt (.deadlock x) u := by
  have hconstruct : ∀ {y : Value} {v : World H},
      construct call c "(Ljava/lang/String;)V" [y] v = .halt (.deadlock x) u →
        ∃ m, resolveMethod c Method.constructorName "(Ljava/lang/String;)V" false v = .ok m v ∧
          (v.registry.get c).isInstantiable = true ∧
          initClass call c { v with held := [y].filterMap Value.object? ++ v.held } =
            .halt (.deadlock x) u := by
    intro y v h
    obtain ⟨m, v', hm, hwith⟩ := deadlock_of_next (.plain (.resolveMethod _ _ _ _)) h
    have hsame : v' = v := by
      unfold resolveMethod at hm
      cases hr : v.registry.resolveMethod c Method.constructorName "(Ljava/lang/String;)V" false <;>
        rw [hr] at hm <;> cases hm
      rfl
    rw [hsame] at hm hwith
    exact ⟨m, hm, initClass_of_constructWith hcall hwith⟩
  obtain ⟨_, _, hworld, h⟩ := deadlock_of_next (.plain .world) h
  cases hworld
  split at h
  next hsub =>
    cases message with
    | none =>
      obtain ⟨m, hm, hconcrete, hinit⟩ := hconstruct h
      exact ⟨m, .null, w, hsub, rfl, hm, hconcrete, hinit⟩
    | some text =>
      obtain ⟨o, v, ho, h⟩ := deadlock_of_next (.plain (.newString _)) h
      obtain ⟨m, hm, hconcrete, hinit⟩ := hconstruct h
      exact ⟨m, .ofObject o, v, hsub, Action.bind_ok ho, hm, hconcrete, hinit⟩
  · exact absurd h (NeverAwaits.plain (.throwFault _) w u)

end Guest

namespace Interface

open Guest Entry

variable {call : Invoker H} {f : Function} {args : List Argument}

/-! ## Functions that run no guest code -/

/-- Entering a monitor waits for its owner. -/
theorem monitor_of_monitorEnter {h : Handle}
    (hwaits : (monitorEnter h : Entry H Unit) w = .halt (.deadlock x) u) :
    ∃ o, w.resolve h = some o ∧ x = .monitor o ∧
      (w.object o).monitor.enter? w.thread.id = none := by
  cases ho : w.resolve h with
  | none =>
    rw [monitorEnter, Action.bind_error (require_none ho)] at hwaits
    cases hwaits
  | some o =>
    rw [monitorEnter_eq ho, Monitor.answer] at hwaits
    cases henter : (w.object o).monitor.enter? w.thread.id with
    | some m =>
      rw [henter] at hwaits
      cases hwaits
    | none =>
      rw [henter] at hwaits
      cases hwaits
      exact ⟨o, rfl, rfl, henter⟩

theorem neverAwaits_checkEnv (env : Option Env) :
    NeverAwaits x (checkEnv env : Action H ε Unit) := by
  unfold checkEnv
  split
  · exact fun w => .halt (by nofun) w
  · refine NeverAwaits.bind (fun w => .ok w w) fun w => ?_
    split
    · exact fun v => .halt (by nofun) v
    · split
      · exact .pure ()
      · exact fun v => .halt (by nofun) v

theorem neverAwaits_throwable (e : EntryError) :
    NeverAwaits x (Entry.throwable e : Action H ε ObjectRef) := by
  unfold Entry.throwable
  split
  · exact .pure _
  · exact fun w => .ok _ _
  · exact fun w => .halt (by nofun) w

theorem neverAwaits_passed (value : Argument) : NeverAwaits x (passed value : Entry H Value) := by
  have k := NeverAwaits.steps (H := H) x
  unfold passed
  split
  · exact k.map (k.checks (.object _))
  · exact k.checks (.pure _)
  · exact fun w => .halt (by nofun) w

/-- A function that runs no guest code and enters no monitor does not wait. -/
theorem neverAwaits_perform (hs : Shaped f args) (hguest : f.runsGuest = false)
    (hmonitor : f ≠ .monitorEnter) : NeverAwaits x (perform call f args : Entry H Answer) := by
  have k := NeverAwaits.steps (H := H) x
  by_cases hplain : f.isPlain = true
  · exact obeys_perform_of_not_runsGuest k hs hplain hguest hmonitor fun value _ =>
      neverAwaits_passed value
  · cases hs with
    | throw h =>
      refine k.map (k.after (.require h _) fun o => k.after .world fun w => ?_)
      split
      · exact NeverAwaits.update _
      · exact k.checks (.fault _ _)
    | exceptionClear => exact k.map (NeverAwaits.update _)
    | deleteLocalRef h =>
      refine k.map ?_
      unfold deleteLocalRef
      split
      · exact k.checks (.pure _)
      · exact NeverAwaits.onAttachment _
    | pushLocalFrame c => exact k.map (k.after (.capacity c) fun n => NeverAwaits.onAttachment _)
    | popLocalFrame h =>
      refine k.map (k.after (.object h) fun o => k.andThen (NeverAwaits.onAttachment _) fun promoted => ?_)
      cases promoted with
      | ok h => exact k.checks (.pure h)
      | error e => exact k.checks fun _ => .error nofun
    | throwNew | exceptionDescribe => cases hguest
    | _ => exact absurd rfl hplain

/-! ## Functions that run guest code -/

/-- Before a static field is read or written, the class that declares it is initialized. -/
theorem initClass_of_staticField {h : Handle} {id : UInt64}
    (hwaits : staticField call h id w = .halt (.deadlock x) u) :
    ∃ c f, (classOf h : Entry H _) w = .ok c w ∧ (field id : Entry H _) w = .ok f w ∧
      (w.registry.field f).isStatic = true ∧ initClass call f.owner w = .halt (.deadlock x) u := by
  have k := NeverAwaits.steps (H := H) x
  obtain ⟨_, hclass, hwaits⟩ := (Checks.classOf h).discard.deadlock_of_next hwaits
  obtain ⟨c, w', hc, hdone⟩ := Action.of_bind_ok hclass
  cases hdone
  obtain ⟨f, hf, hwaits⟩ := (Checks.field id).deadlock_of_next hwaits
  obtain ⟨r, hr, hwaits⟩ := (Checks.read _).deadlock_of_next hwaits
  cases hr
  split at hwaits
  next hstatic =>
    have hinit := deadlock_of_first (fun _ => .pure _) hwaits
    exact ⟨c, f, hc, hf, hstatic, Action.of_mapError_halt hinit⟩
  · exact absurd hwaits (k.checks (.fault _ _) w u)

section Initializes

variable (hcall : CallsNeverAwait x call)
include hcall

theorem neverAwaits_exceptionDescribe : NeverAwaits x (exceptionDescribe call) := by
  have k := NeverAwaits.steps (H := H) x
  have hreport : ∀ o, NeverAwaits x (report call o) := fun o =>
    (NeverAwaits.plain (.read _)).bind fun _ =>
      (NeverAwaits.plain (.resolveMethod _ _ _ _)).bind fun _ =>
        (NeverAwaits.plain (.dispatch _ _)).bind fun m => hcall m _ _
  refine NeverAwaits.bind (k.checks (.read _)) fun pending => ?_
  cases pending with
  | none => exact .pure ()
  | some o =>
    refine (NeverAwaits.update _).bind fun _ => ?_
    exact (((hreport o).result.holding [o]).bind fun _ => .pure _).bind fun _ => .update _

/-- If no method waits, a function that runs guest code waits for the initialization of a class. -/
theorem initializes_of_deadlock (hs : Shaped f args) (hguest : f.runsGuest = true)
    (h : perform call f args w = .halt (.deadlock x) u) :
    ∃ c v d, Initializes w f args c v ∧ x = .initialization d ∧ v.awaitedFor? c = some d := by
  have k := NeverAwaits.steps (H := H) x
  have hinitializes : ∀ {c v}, Initializes w f args c v →
      initClass call c v = .halt (.deadlock x) u →
        ∃ c v d, Initializes w f args c v ∧ x = .initialization d ∧ v.awaitedFor? c = some d := by
    intro c v hcomes hinit
    obtain ⟨d, hx, hd⟩ := awaitedFor?_of_initClass hcall hinit
    exact ⟨c, v, d, hcomes, hx, hd⟩
  -- A call of a method is not the function's own doing.
  have hmethod : ∀ target id slots kind,
      (callMethod call target id slots >>= returned kind) w ≠ .halt (.deadlock x) u := by
    intro target id slots kind
    refine k.andThen (k.callMethod (fun m receiver args => ?_) target id slots)
      (fun v => k.returned kind v) w u
    exact (hcall m receiver args).mapError _
  cases hs with
  | findClass name =>
    have hbody : findClass call name w = .halt (.deadlock x) u :=
      deadlock_of_first (fun _ => .pure _) h
    cases name with
    | none => cases hbody
    | some bytes =>
      obtain ⟨c, v, hc, hbody⟩ := deadlock_of_next (k.plain (.findClass _)) hbody
      have hinit := deadlock_of_first (fun _ => k.classLocal c) hbody
      exact hinitializes (.findClass (of_guest_ok hc)) (Action.of_mapError_halt hinit)
  | allocObject h' =>
    have hbody : allocObject call h' w = .halt (.deadlock x) u :=
      deadlock_of_first (fun _ => .pure _) h
    obtain ⟨c, hc, hbody⟩ := (Checks.classOf h').deadlock_of_next hbody
    have hmake := Action.of_mapError_halt (deadlock_of_first (fun _ => k.newLocal _) hbody)
    obtain ⟨hconcrete, hinit⟩ := initClass_of_allocate hmake
    exact hinitializes (.allocObject hc hconcrete) hinit
  | newObject h' id slots =>
    have hbody : newObject call h' id slots w = .halt (.deadlock x) u :=
      deadlock_of_first (fun _ => .pure _) h
    obtain ⟨c, hc, hbody⟩ := (Checks.classOf h').deadlock_of_next hbody
    obtain ⟨m, hm, hbody⟩ := (Checks.method id).deadlock_of_next hbody
    obtain ⟨r, hr, hbody⟩ := (Checks.read _).deadlock_of_next hbody
    cases hr
    split at hbody
    next hconstructor =>
      obtain ⟨values, v, hargs, hbody⟩ := deadlock_of_next (k.arguments m slots) hbody
      have hmake := Action.of_mapError_halt (deadlock_of_first (fun _ => k.newLocal _) hbody)
      obtain ⟨hconcrete, hinit⟩ := initClass_of_constructWith hcall hmake
      exact hinitializes (.newObject hc hm hconstructor hargs hconcrete) hinit
    · exact absurd hbody (k.checks (.fault _ _) w u)
  | throwNew h' message =>
    have hbody : throwNew call h' message w = .halt (.deadlock x) u :=
      deadlock_of_first (fun _ => .pure _) h
    obtain ⟨c, hc, hbody⟩ := (Checks.classOf h').deadlock_of_next hbody
    have hmake := Action.of_mapError_halt (deadlock_of_first (fun _ => .update _) hbody)
    obtain ⟨m, y, v, hsub, hy, hm, hconcrete, hinit⟩ := initClass_of_newThrowable hcall hmake
    exact hinitializes (.throwNew hc hsub hy hm hconcrete) hinit
  | exceptionDescribe =>
    have hbody : exceptionDescribe call w = .halt (.deadlock x) u :=
      deadlock_of_first (fun _ => .pure _) h
    exact absurd hbody (neverAwaits_exceptionDescribe hcall w u)
  | getMethodId mode h' name descriptor =>
    have hbody : getMethodId call mode h' name descriptor w = .halt (.deadlock x) u :=
      deadlock_of_first (fun _ => .pure _) h
    obtain ⟨c, hc, hbody⟩ := (Checks.classOf h').deadlock_of_next hbody
    have hinit := deadlock_of_first (fun _ => k.after (.text _ _) fun _ => k.after (.text _ _)
      fun _ => k.andThen (k.plain (.resolveMethod _ _ _ _)) fun m => k.methodId m) hbody
    exact hinitializes (.getMethodId mode name descriptor hc) (Action.of_mapError_halt hinit)
  | getFieldId mode h' name descriptor =>
    have hbody : getFieldId call mode h' name descriptor w = .halt (.deadlock x) u :=
      deadlock_of_first (fun _ => .pure _) h
    obtain ⟨c, hc, hbody⟩ := (Checks.classOf h').deadlock_of_next hbody
    have hinit := deadlock_of_first (fun _ => k.after (.text _ _) fun _ => k.after (.text _ _)
      fun _ => k.andThen (k.plain (.resolveField _ _ _ _)) fun f => k.fieldId f) hbody
    exact hinitializes (.getFieldId mode name descriptor hc) (Action.of_mapError_halt hinit)
  | callVirtual kind h' id slots =>
    exact absurd (deadlock_of_first (fun _ => .pure _) h) (hmethod _ id slots kind)
  | callNonvirtual kind h' c id slots =>
    exact absurd (deadlock_of_first (fun _ => .pure _) h) (hmethod _ id slots kind)
  | callStatic kind c id slots =>
    exact absurd (deadlock_of_first (fun _ => .pure _) h) (hmethod _ id slots kind)
  | getField mode kind h' id =>
    cases mode with
    | perObject => cases hguest
    | static =>
      have hbody : getStaticField call kind h' id w = .halt (.deadlock x) u :=
        deadlock_of_first (fun _ => .pure _) h
      have hfield := deadlock_of_first (k.readStatic kind) hbody
      obtain ⟨c, f, hc, hf, hstatic, hinit⟩ := initClass_of_staticField hfield
      exact hinitializes (.getField kind hc hf hstatic) hinit
  | setField mode kind h' id value =>
    cases mode with
    | perObject => cases hguest
    | static =>
      have hbody : setStaticField call h' id value w = .halt (.deadlock x) u :=
        deadlock_of_first (fun _ => .pure _) h
      have hfield := deadlock_of_first (fun f => k.writeStatic f (neverAwaits_passed value)) hbody
      obtain ⟨c, f, hc, hf, hstatic, hinit⟩ := initClass_of_staticField hfield
      exact hinitializes (.setField kind value hc hf hstatic) hinit
  | _ => cases hguest

end Initializes

end Interface

/-! ## Calls that do something else than wait -/

/-- The outcomes are the same, but for the reason why the run is over. -/
def Outcome.Swapped (r r' : Halt) (o o' : Outcome H ε α) : Prop :=
  o = o' ∨ ∃ u, o = .halt r u ∧ o' = .halt r' u

theorem Outcome.Swapped.congruence (r r' : Halt) :
    OutcomeCongruence (H := H) fun o o' => o.Swapped r r' o' where
  refl _ := .inl rfl
  bind ha hf := by
    rcases ha with heq | ⟨u, h, h'⟩
    · exact Action.bind_related (fun _ => .inl rfl) heq hf
    · exact .inr ⟨u, Action.bind_halt h, Action.bind_halt h'⟩
  result ha := by
    rcases ha with heq | ⟨u, h, h'⟩
    · exact .inl (Action.result_congr heq)
    · exact .inr ⟨u, Action.result_halt h, Action.result_halt h'⟩
  mapError g w ha := by
    rcases ha with heq | ⟨u, h, h'⟩
    · exact .inl (by rw [Action.mapError, Action.mapError, heq])
    · exact .inr ⟨u, by rw [Action.mapError, h], by rw [Action.mapError, h']⟩
  andFinally g w ha := by
    rcases ha with heq | ⟨u, h, h'⟩
    · exact .inl (Action.andFinally_congr heq)
    · exact .inr ⟨u, by rw [Action.andFinally, h], by rw [Action.andFinally, h']⟩

namespace Guest

variable {call : Invoker H} {r r' : Halt}

/-- Where a call would wait for a thing, it ends the run for another reason instead. -/
def insteadOf (x : Awaited) (r : Halt) (call : Invoker H) : Invoker H :=
  fun m receiver args w =>
    match call m receiver args w with
    | .halt (.deadlock y) u => .halt (if y = x then r else .deadlock y) u
    | o => o

theorem insteadOf_cases (x : Awaited) (r : Halt) (call : Invoker H) (m : MethodRef)
    (receiver : Option ObjectRef) (args : List Value) (w : World H) :
    (∃ u, call m receiver args w = .halt (.deadlock x) u ∧
      insteadOf x r call m receiver args w = .halt r u) ∨
    ((call m receiver args w).Unblocked x ∧
      insteadOf x r call m receiver args w = call m receiver args w) := by
  unfold insteadOf
  cases call m receiver args w with
  | ok y u => exact .inr ⟨.ok y u, rfl⟩
  | error e u => exact .inr ⟨.error e u, rfl⟩
  | panic message u => exact .inr ⟨.panic message u, rfl⟩
  | halt q u =>
    cases q with
    | deadlock y =>
      by_cases hy : y = x
      · subst hy
        refine .inl ⟨u, rfl, ?_⟩
        dsimp only
        rw [if_pos rfl]
      · refine .inr ⟨.halt (fun h => hy (Halt.deadlock.inj h)) u, ?_⟩
        dsimp only
        rw [if_neg hy]
    | _ => exact .inr ⟨.halt (by nofun) u, rfl⟩

theorem swapped_insteadOf (x : Awaited) (r : Halt) (call : Invoker H) :
    CallsRelated (fun a a' => Compared (fun o o' => o.Swapped (.deadlock x) r o') a a') call
      (insteadOf x r call) := by
  intro m receiver args w
  rcases insteadOf_cases x r call m receiver args w with ⟨u, hwaits, hends⟩ | ⟨-, hsame⟩
  · exact .inr ⟨u, hwaits, hends⟩
  · exact .inl hsame.symm

/-- Whatever the calls do instead, it is the same but for the reason. -/
theorem swapped_insteadOf_insteadOf (x : Awaited) (r r' : Halt) (call : Invoker H) :
    CallsRelated (fun a a' => Compared (fun o o' => o.Swapped r r' o') a a') (insteadOf x r call)
      (insteadOf x r' call) := by
  intro m receiver args w
  rcases insteadOf_cases x r call m receiver args w with ⟨u, hwaits, hends⟩ | ⟨hgoes, hsame⟩
  · rcases insteadOf_cases x r' call m receiver args w with ⟨u', hwaits', hends'⟩ | ⟨hgoes, -⟩
    · cases hwaits.symm.trans hwaits'
      exact .inr ⟨u, hends, hends'⟩
    · exact absurd hwaits (hgoes u)
  · rcases insteadOf_cases x r' call m receiver args w with ⟨u, hwaits, -⟩ | ⟨-, hsame'⟩
    · exact absurd hwaits (hgoes u)
    · exact .inl (hsame.trans hsame'.symm)

theorem callsNeverAwait_insteadOf (hr : r ≠ .deadlock x) :
    CallsNeverAwait x (insteadOf x r call) := by
  intro m receiver args w u h
  rcases insteadOf_cases x r call m receiver args w with ⟨u', -, hends⟩ | ⟨hgoes, hsame⟩
  · cases hends.symm.trans h
    exact hr rfl
  · exact hgoes u (hsame.symm.trans h)

end Guest

namespace Interface

open Guest

variable {call : Invoker H} {f : Function} {args : List Argument}

/-! ## What a function waits for -/

/-- A function of the interface that is called in a state comes to wait for something. -/
inductive Awaits (call : Invoker H) (w : World H) : Function → List Argument → Awaited → Prop
  /-- Another thread owns the monitor that the function enters. -/
  | monitor {h : Handle} {o : ObjectRef} (ho : w.resolve h = some o)
    (held : (w.object o).monitor.enter? w.thread.id = none) :
    Awaits call w .monitorEnter [.handle h] (.monitor o)
  /-- The function initializes a class itself, but another thread initializes it or one of its
  superclasses already. -/
  | initialization {f : Function} {args : List Argument} {c d : ClassId} {v : World H}
    (comes : Initializes w f args c v) (begun : v.awaitedFor? c = some d) : Awaits call w f args (.initialization d)
  /-- A method that the function calls waits: the function ends as that call would, if the call did
  something else instead. -/
  | method {f : Function} {args : List Argument} {x : Awaited} {u : World H}
    (guest : f.runsGuest = true)
    (waits : ∀ r, perform (insteadOf x r call) f args w = .halt r u) : Awaits call w f args x

/-- A function waits for nothing else. -/
theorem awaits_of_deadlock (hs : Shaped f args)
    (h : perform call f args w = .halt (.deadlock x) u) : Awaits call w f args x := by
  by_cases hguest : f.runsGuest = true
  · have hswapped : ∀ r, (perform call f args w).Swapped (.deadlock x) r
        (perform (insteadOf x r call) f args w) := fun r =>
      (Outcome.Swapped.congruence _ r).perform (swapped_insteadOf x r call) hs w
    have hnever : CallsNeverAwait x (insteadOf x .misuse call) := callsNeverAwait_insteadOf nofun
    rcases hswapped .misuse with heq | ⟨u', hwaits, hends⟩
    · obtain ⟨c, v, d, hcomes, rfl, hd⟩ :=
        initializes_of_deadlock hnever hs hguest (heq.symm.trans h)
      exact .initialization hcomes hd
    · cases h.symm.trans hwaits
      refine .method (u := u) hguest fun r => ?_
      rcases (Outcome.Swapped.congruence .misuse r).perform
          (swapped_insteadOf_insteadOf x .misuse r call) hs w with heq | ⟨u', hends', hr⟩
      · rcases hswapped r with hsame | ⟨u', -, hr⟩
        · cases h.symm.trans (hsame.trans (heq.symm.trans hends))
        · cases hends.symm.trans (heq.trans hr)
          exact hr
      · cases hends.symm.trans hends'
        exact hr
  · by_cases hmonitor : f = .monitorEnter
    · subst hmonitor
      cases hs with
      | monitorEnter h' =>
        obtain ⟨o, ho, rfl, henter⟩ := monitor_of_monitorEnter (deadlock_of_first (fun _ => .pure _) h)
        exact .monitor ho henter
    · exact absurd h (neverAwaits_perform hs (Bool.eq_false_iff.2 hguest) hmonitor w u)

end Interface

end GuestBoundary
