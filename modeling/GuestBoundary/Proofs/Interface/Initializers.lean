import GuestBoundary.Proofs.Classes.Dispatch
import GuestBoundary.Proofs.Classes.Names
import GuestBoundary.Proofs.Descriptor.Grammar
import GuestBoundary.Proofs.Guest.Initializers
import GuestBoundary.Proofs.Interface.Failures
import GuestBoundary.Proofs.Interface.Outcomes

/-!
# Static initializers within reach of native code

Native code that has the number of a method can call it, and static initializers are methods.  So
there is one way in which native code runs an initializer once more: it asks for its number, under
its name and descriptor, and makes a static call with it.  All other functions of the interface
leave initializers to the initialization of their classes, whatever native code and guest code do: a
strict watch never steps in there (`initializers_run_once_unless_called`).
-/

namespace GuestBoundary

variable {H ε α β : Type}

/-! ## Methods that are static initializers -/

namespace Registry

variable {r r' : Registry} {c : ClassId} {m n : MethodRef} {name descriptor : String}
  {isStatic : Bool}

theorem of_initializer? (h : r.initializer? c = some m) : r.Declares c m ∧
    (r.method m).isStatic = true ∧ (r.method m).name = Method.initializerName := by
  obtain ⟨hdeclares, hfits⟩ := declares_of_findIdx? h
  rw [Bool.and_eq_true, beq_iff_eq] at hfits
  exact ⟨hdeclares, hfits⟩

theorem of_resolveMethod (h : r.resolveMethod c name descriptor isStatic = .ok m) :
    (r.method m).isStatic = isStatic ∧ (r.method m).name = name := by
  unfold resolveMethod at h
  split at h
  case h_1 n hn =>
    cases h
    obtain ⟨hfind, hstatic⟩ := Option.filter_eq_some_iff.1 hn
    obtain ⟨_, -, hfound⟩ := List.exists_of_findSome?_eq_some hfind
    obtain ⟨-, hsignature⟩ := of_declaredMethod? hfound
    rw [Method.hasSignature, Bool.and_eq_true] at hsignature
    exact ⟨eq_of_beq hstatic, eq_of_beq hsignature.1⟩
  case h_2 => cases h

/-- The name and the descriptor of a static initializer find it. -/
theorem WellFormed.resolveMethod_initializer (wf : r.WellFormed) (hc : c.index < r.size)
    (h : r.initializer? c = some m) :
    r.resolveMethod c Method.initializerName (r.method m).descriptor true = .ok m := by
  obtain ⟨hdeclares, hstatic, hname⟩ := of_initializer? h
  have hdeclared : r.declaredMethod? c Method.initializerName (r.method m).descriptor = some m := by
    cases hfound : r.declaredMethod? c Method.initializerName (r.method m).descriptor with
    | none =>
      have := declaredMethod?_eq_none_iff.1 hfound _ (List.mem_of_getElem? hdeclares.getElem?)
      rw [Method.hasSignature, hname, beq_self_eq_true, beq_self_eq_true] at this
      cases this
    | some n =>
      obtain ⟨hdeclares', hsignature⟩ := of_declaredMethod? hfound
      rw [Method.hasSignature, Bool.and_eq_true, beq_iff_eq, beq_iff_eq] at hsignature
      have hsame : (r.method n).signature = (r.method m).signature :=
        Prod.ext (hsignature.1.trans hname.symm) (MethodType.text_injective hsignature.2)
      rw [hdeclares'.eq_of_signature_eq (wf.distinct c) hdeclares hsame]
  obtain ⟨rest, horder⟩ := wf.methodOrder c hc
  have hfind : r.findMethod? c Method.initializerName (r.method m).descriptor = some m := by
    rw [findMethod?, horder, wf.ranked.chain_eq, List.cons_append, List.findSome?_cons, hdeclared]
  rw [resolveMethod, hfind, Option.filter_some, if_pos (by rw [hstatic]; rfl)]

/-- A call on an object never runs a static method. -/
theorem WellFormed.isStatic_of_dispatch (wf : r.WellFormed) (hm : (r.method m).isStatic = false)
    (h : r.dispatch c m = .ok n) : (r.method n).isStatic = false := by
  cases hvirtual : (r.method m).isVirtual with
  | false =>
    rw [dispatch, hvirtual] at h
    cases h
    exact hm
  | true =>
    rw [wf.dispatch_eq hvirtual (isSubclass_of_dispatch_eq_ok hvirtual h)] at h
    cases h
    cases hnearest : r.nearest? c (r.method m).signature with
    | none => exact hm
    | some n =>
      obtain ⟨-, -, hn, -⟩ := of_nearest? hnearest
      rw [Method.isVirtual, Bool.and_eq_true, Bool.not_eq_true'] at hn
      exact hn.1

/-- Constructors stay constructors. -/
theorem Extends.isConstructor (h : r.Extends r') (hm : (r.method m).isConstructor = true) :
    (r'.method m).isConstructor = true := by
  rcases Nat.lt_or_ge m.owner.index r.size with hlt | hge
  · rwa [h.method_eq hlt]
  · -- what stands for a method that is not there has no name
    rw [method, get_of_le hge] at hm
    cases hm

end Registry

namespace World

variable {w : World H} {m : MethodRef}

theorem not_isInitializer_of_not_static (h : (w.registry.method m).isStatic = false) :
    ¬ w.IsInitializer m := by
  intro hm
  rw [(Registry.of_initializer? hm).2.1] at h
  cases h

theorem not_isInitializer_of_isConstructor (h : (w.registry.method m).isConstructor = true) :
    ¬ w.IsInitializer m := by
  intro hm
  rw [Method.isConstructor, (Registry.of_initializer? hm).2.2] at h
  exact absurd h (by decide)

end World

/-! ## Guest code that a function runs -/

namespace Guest

open World

theorem ofFault_ok {r : Except GuestFault α} {x : α} {w v : World H}
    (h : ofFault r w = .ok x v) : v = w ∧ r = .ok x := by
  cases r with
  | ok y =>
    cases h
    exact ⟨rfl, rfl⟩
  | error f => cases h

section Watched

variable {call : Invoker (Ledger H)} {c : ClassId} {m : MethodRef} {receiver : Option ObjectRef}
  {args : List Value} {w : World (Ledger H)}

theorem watching_of_not (h : ¬ w.IsInitializer m) :
    watching true call m receiver args w = watching false call m receiver args w :=
  watching_eq (fun hm => absurd hm h) true

/-- After what keeps the books, only states in which they are in order matter. -/
theorem bind_accounted {a : Action (Ledger H) ε α} {f g : α → Action (Ledger H) ε β}
    (ha : Keeps KeepsBooks a) (hw : w.Accounted) (h : ∀ x v, Accounts w v → f x v = g x v) :
    (a >>= f) w = (a >>= g) w := by
  refine Action.bind_congr_ok fun x v hx => h x v ?_
  have := hw.leaves ha
  rwa [hx] at this

variable (hcall : CallsKeep KeepsBooks (watching true call)) (hw : w.Accounted)
include hcall hw

theorem constructWith_watching (hm : (w.registry.method m).isConstructor = true) :
    constructWith (watching true call) c m args w =
      constructWith (watching false call) c m args w := by
  have hsame : SameClasses w { w with held := args.filterMap Value.object? ++ w.held } := .of_eq rfl
  have hheld := (hsame.accounts rfl hw).accounted
  refine Action.holding_congr (Eq.trans ?_ (Action.bind_congr (allocate_watching hcall hheld)))
  have hallocate : Keeps KeepsBooks (allocate (watching true call) c) :=
    keepsBooks_neutral.congruence.allocate hcall.related c
  refine bind_accounted hallocate hheld fun o v hv => ?_
  refine Action.bind_congr (Action.holding_congr (Action.bind_congr (watching_of_not ?_)))
  exact not_isInitializer_of_isConstructor (hv.registry.isConstructor hm)

theorem construct_watching (descriptor : String) :
    construct (watching true call) c descriptor args w =
      construct (watching false call) c descriptor args w := by
  refine Action.bind_congr_ok fun m v h => ?_
  obtain ⟨rfl, hm⟩ := ofFault_ok h
  refine constructWith_watching hcall hw ?_
  rw [Method.isConstructor, (Registry.of_resolveMethod hm).2, beq_self_eq_true]

theorem newThrowable_watching (message : Option String) :
    newThrowable (watching true call) c message w =
      newThrowable (watching false call) c message w := by
  refine Action.bind_congr_ok fun x v h => ?_
  cases h
  split
  · cases message with
    | none => exact construct_watching hcall hw _
    | some text =>
      have hstring : Keeps KeepsBooks (Guest.newString (Text.units text) : Guest (Ledger H) _) :=
        keepsBooks_neutral.still (Plain.newString _).still
      exact bind_accounted hstring hw fun o v hv => construct_watching hcall hv.accounted _
  · rfl

end Watched

end Guest

namespace Interface

open World Entry Guest

/-! ## Functions of the interface -/

/-- Native code calls, by its number, the static initializer of a class. -/
def NamesInitializer (w : World H) : Function → List Argument → Prop
  | .call .static _, [.handle _, .member id, .arguments _] =>
    ∃ m, (method id : Entry H MethodRef) w = .ok m w ∧ w.IsInitializer m
  | _, _ => False

/-- Reading arguments changes the bridge at most. -/
theorem of_arguments_ok {m : MethodRef} {slots : Option (List Slot)} {args : List Value}
    {w v : World H} (h : (arguments m slots : Entry H (List Value)) w = .ok args v) :
    ∃ bridge, v = { w with bridge } := by
  obtain ⟨_, _, hworld, h⟩ := Action.of_bind_ok h
  cases hworld
  obtain ⟨signature, u, hsignature, h⟩ := Action.of_bind_ok h
  obtain rfl : v = u := by
    split at h
    · cases h
      rfl
    · split at h <;> cases h
      rfl
  unfold onBridge at hsignature
  split at hsignature
  case h_1 => cases hsignature
  case h_2 =>
    split at hsignature <;> cases hsignature
    exact ⟨_, rfl⟩

/-- After a check the state is the same. -/
theorem bind_checks {a : Entry H α} {f g : α → Entry H β} {w : World H} (ha : Checks a)
    (h : ∀ x, a w = .ok x w → f x w = g x w) : (a >>= f) w = (a >>= g) w := by
  refine Action.bind_congr_ok fun x v hx => ?_
  obtain rfl := ha.cases_ok hx
  exact h x hx

section Watched

variable {call : Invoker (Ledger H)} {w : World (Ledger H)}
  (hcall : CallsKeep KeepsBooks (watching true call)) (hw : w.Accounted)
include hcall hw

theorem initClass_watching (c : ClassId) :
    guest (Guest.initClass (watching true call) c) w =
      guest (Guest.initClass (watching false call) c) w :=
  guest_congr (Guest.initClass_watching hcall hw)

theorem findClass_watching (name : Option (List UInt8)) :
    findClass (watching true call) name w = findClass (watching false call) name w := by
  refine bind_checks (.text name _) fun name _ => ?_
  have hfind : Keeps KeepsBooks (guest (Guest.findClass name) : Entry (Ledger H) ClassId) :=
    .guest (keepsBooks_neutral.still (Plain.findClass name).still)
  exact bind_accounted hfind hw fun c v hv =>
    Action.bind_congr (initClass_watching hcall hv.accounted c)

theorem allocObject_watching (h : Handle) :
    allocObject (watching true call) h w = allocObject (watching false call) h w :=
  bind_checks (.classOf h) fun _ _ => Action.bind_congr (guest_congr (allocate_watching hcall hw))

theorem newObject_watching (h : Handle) (id : UInt64) (slots : Option (List Slot)) :
    newObject (watching true call) h id slots w = newObject (watching false call) h id slots w := by
  refine bind_checks (.classOf h) fun c _ => bind_checks (.method id) fun m _ => ?_
  refine bind_checks (.read _) fun r hr => ?_
  cases hr
  split
  case isTrue hm =>
    have hargs : Keeps KeepsBooks (arguments m slots : Entry (Ledger H) (List Value)) :=
      keepsBooks_neutral.entryNeutral.rules.arguments m slots
    refine bind_accounted hargs hw fun args v hv => ?_
    refine Action.bind_congr (guest_congr (constructWith_watching hcall hv.accounted ?_))
    exact hv.registry.isConstructor hm
  case isFalse => rfl

theorem throwNew_watching (h : Handle) (message : Option (List UInt8)) :
    throwNew (watching true call) h message w = throwNew (watching false call) h message w :=
  bind_checks (.classOf h) fun _ _ =>
    Action.bind_congr (guest_congr (newThrowable_watching hcall hw _))

theorem getMethodId_watching (mode : FieldMode) (h : Handle)
    (name descriptor : Option (List UInt8)) :
    getMethodId (watching true call) mode h name descriptor w =
      getMethodId (watching false call) mode h name descriptor w :=
  bind_checks (.classOf h) fun c _ => Action.bind_congr (initClass_watching hcall hw c)

theorem getFieldId_watching (mode : FieldMode) (h : Handle)
    (name descriptor : Option (List UInt8)) :
    getFieldId (watching true call) mode h name descriptor w =
      getFieldId (watching false call) mode h name descriptor w :=
  bind_checks (.classOf h) fun c _ => Action.bind_congr (initClass_watching hcall hw c)

theorem staticField_watching (h : Handle) (id : UInt64) :
    staticField (watching true call) h id w = staticField (watching false call) h id w := by
  refine bind_checks (.discard (.classOf h)) fun _ _ => bind_checks (.field id) fun f _ => ?_
  refine bind_checks (.read _) fun r _ => ?_
  split
  · exact Action.bind_congr (initClass_watching hcall hw f.owner)
  · rfl

omit hcall hw in
/-- A throwable prints itself with a method of its own, and not with a static one. -/
theorem report_watching (wf : w.registry.WellFormed) (o : ObjectRef) :
    report (watching true call) o w = report (watching false call) o w := by
  refine Action.bind_congr_ok fun c v hc => ?_
  cases hc
  refine Action.bind_congr_ok fun m v hm => ?_
  obtain ⟨rfl, hm⟩ := ofFault_ok hm
  refine Action.bind_congr_ok fun n v hn => ?_
  obtain ⟨rfl, hn⟩ := ofFault_ok hn
  refine watching_of_not (not_isInitializer_of_not_static ?_)
  exact wf.isStatic_of_dispatch (Registry.of_resolveMethod hm).1 hn

omit hcall hw in
theorem exceptionDescribe_watching (wf : w.registry.WellFormed) :
    exceptionDescribe (watching true call) w = exceptionDescribe (watching false call) w := by
  refine Action.bind_congr_ok fun pending v hp => ?_
  cases hp
  cases w.pending with
  | none => rfl
  | some o =>
    refine Action.bind_congr_ok fun _ v hv => ?_
    cases hv
    refine Action.bind_congr (Action.bind_congr (Action.holding_congr (Action.result_congr ?_)))
    exact report_watching (w := { w.updatePending Pending.clear with held := _ }) wf o

omit hcall hw in
theorem callMethod_watching (wf : w.registry.WellFormed) (target : CallTarget) (id : UInt64)
    (slots : Option (List Slot))
    (hstatic : target.isStatic = true →
      ¬ ∃ m, (method id : Entry (Ledger H) MethodRef) w = .ok m w ∧ w.IsInitializer m) :
    callMethod (watching true call) target id slots w =
      callMethod (watching false call) target id slots w := by
  refine bind_checks (.method id) fun m hm => bind_checks (.read _) fun r hr => ?_
  cases hr
  split
  case isTrue => rfl
  case isFalse hsort =>
    have hsort : (w.registry.method m).isStatic = target.isStatic := by simpa using hsort
    refine Action.bind_congr_ok fun args v hargs => ?_
    obtain ⟨bridge, rfl⟩ := of_arguments_ok hargs
    cases target with
    | «virtual» receiver =>
      refine bind_checks (.require receiver _) fun o _ => ?_
      refine Action.bind_congr_ok fun n u hn => ?_
      obtain ⟨rfl, hselected⟩ := ofFault_ok (of_guest_ok hn)
      refine guest_congr (watching_of_not (not_isInitializer_of_not_static ?_))
      exact wf.isStatic_of_dispatch hsort hselected
    | nonvirtual receiver owner =>
      refine bind_checks (.require receiver _) fun o _ => bind_checks (.classOf owner) fun c _ => ?_
      refine bind_checks .world fun u hu => ?_
      cases hu
      split
      · exact guest_congr (watching_of_not (not_isInitializer_of_not_static hsort))
      · rfl
    | static owner =>
      refine bind_checks (.discard (.classOf owner)) fun _ _ => guest_congr (watching_of_not ?_)
      exact fun hinit => hstatic rfl ⟨m, hm, hinit⟩

/-- Of all functions, a strict watch can step in only where native code calls an initializer
itself. -/
theorem perform_watching (wf : w.registry.WellFormed) {f : Function} {args : List Argument}
    (hs : Shaped f args) (hf : ¬ NamesInitializer w f args) :
    perform (watching true call) f args w = perform (watching false call) f args w := by
  cases hguest : f.runsGuest with
  | false => rw [perform_eq_of_not_runsGuest hs hguest]
  | true =>
    cases hs with
    | findClass name => exact Action.bind_congr (findClass_watching hcall hw name)
    | allocObject h => exact Action.bind_congr (allocObject_watching hcall hw h)
    | newObject h id slots => exact Action.bind_congr (newObject_watching hcall hw h id slots)
    | throwNew h message => exact Action.bind_congr (throwNew_watching hcall hw h message)
    | exceptionDescribe => exact Action.bind_congr (exceptionDescribe_watching wf)
    | getMethodId mode h name descriptor =>
      exact Action.bind_congr (getMethodId_watching hcall hw mode h name descriptor)
    | getFieldId mode h name descriptor =>
      exact Action.bind_congr (getFieldId_watching hcall hw mode h name descriptor)
    | callVirtual kind h id slots =>
      exact Action.bind_congr (Action.bind_congr (callMethod_watching wf (.virtual h) id slots nofun))
    | callNonvirtual kind h c id slots =>
      exact Action.bind_congr
        (Action.bind_congr (callMethod_watching wf (.nonvirtual h c) id slots nofun))
    | callStatic kind c id slots =>
      exact Action.bind_congr
        (Action.bind_congr (callMethod_watching wf (.static c) id slots fun _ => hf))
    | getField mode kind h id =>
      cases mode with
      | perObject => cases hguest
      | static =>
        exact Action.bind_congr (Action.bind_congr (staticField_watching hcall hw h id))
    | setField mode kind h id value =>
      cases mode with
      | perObject => cases hguest
      | static =>
        exact Action.bind_congr (Action.bind_congr (staticField_watching hcall hw h id))
    | _ => cases hguest

end Watched

/-! ## Whole runs -/

/-- The function is called in one way or the other, and does the same. -/
theorem callFunction_congr {call call' : Invoker H} {f : Function} {args : List Argument}
    {w : World H} (env : Option Env) (h : perform call f args w = perform call' f args w) :
    (callFunction call env f args w : Outcome H ε Answer) = callFunction call' env f args w := by
  refine Action.bind_congr_ok fun _ v hv => ?_
  have hchecked : (checkEnv env w : Outcome H ε Unit).Returns (fun _ v => v = w) :=
    returns_checkEnv env w
  rw [hv] at hchecked
  obtain rfl : v = w := hchecked
  exact contain_congr h

/-- Actions that come to the same from two states. -/
theorem bind_congr_from {a a' : Action H ε α} {f : α → Action H ε β} {w w' : World H}
    (h : a w = a' w') : (a >>= f) w = (a' >>= f) w' := by
  show Action.andThen a f w = Action.andThen a' f w'
  rw [Action.andThen, Action.andThen, h]

section Rerun

variable {call : Invoker (Ledger H)} {w v : World (Ledger H)} {m : MethodRef} {h : Handle}
  {id : UInt64} {slots : Option (List Slot)} {args : List Value} {c : ClassId}

/-- A static call of an initializer gets to the method, if its operands are in order. -/
theorem callMethod_initializer (hm : (method id : Entry (Ledger H) _) w = .ok m w)
    (hinit : w.IsInitializer m) (hargs : (arguments m slots : Entry (Ledger H) _) w = .ok args v)
    (hc : (classOf h : Entry (Ledger H) _) v = .ok c v) :
    callMethod call (.static h) id slots w = guest (call m none args) v := by
  have hsort : ¬ ((w.registry.method m).isStatic != (CallTarget.static h).isStatic) = true := by
    rw [(Registry.of_initializer? hinit).2.1]
    exact Bool.false_ne_true
  have hread : (Action.read World.registry : Entry (Ledger H) _) w = .ok w.registry w := rfl
  rw [callMethod, Action.bind_ok hm, Action.bind_ok hread, if_neg hsort, Action.bind_ok hargs]
  exact Action.bind_ok (Action.bind_ok hc)

end Rerun

/-- A call of a method with only the calls that it makes under a watch. -/
def invokeUnwatched (native : NativeCode (Ledger H)) (fuel : Nat) : Invoker (Ledger H) :=
  invokeWith native (invokeWatched true native fuel)

/-- Native code makes a static call of an initializer that initialization is not about to call. -/
structure CallsOutOfTurn (call : Invoker (Ledger H)) (kind : Kind) (args : List Argument)
    (m : MethodRef) (values : List Value) (w v : World (Ledger H)) : Prop where
  /-- The initializer runs all the same. -/
  lax : perform (watching false call) (.call .static kind) args w =
    answerReturned (do Entry.returned kind (← guest (call m none values))) (v.noteCall m.owner)
  strict : perform (watching true call) (.call .static kind) args w = .halt .misuse v
  unaccounted : ¬ (v.noteCall m.owner).Accounted

/-- In a state of a run under a strict watch, initializers were called for initialization only, and
no initializer was called twice; and the run is one without a watch.  The watch never steps in when
a class is initialized, and among the functions of the interface it does so only where one calls an
initializer by its number.  There it has to. -/
structure InitializersRunOnce (native : NativeCode (Ledger H)) (start w : World (Ledger H)) :
    Prop where
  accounted : w.Accounted
  run : Steps (invokeWatched false native) SameBooks start w
  initialization : ∀ fuel c, Guest.initClass (watching true (invokeUnwatched native fuel)) c w =
    Guest.initClass (watching false (invokeUnwatched native fuel)) c w
  function : w.registry.Reachable → ∀ fuel env f args, Shaped f args → ¬ NamesInitializer w f args →
    (callFunction (watching true (invokeUnwatched native fuel)) env f args w :
        Outcome (Ledger H) Empty Answer) =
      callFunction (watching false (invokeUnwatched native fuel)) env f args w
  /-- Every initializer is found by native code that asks for it. -/
  found : w.registry.Reachable → ∀ c m, w.registry.initializer? c = some m →
    Guest.resolveMethod c Method.initializerName (w.registry.method m).descriptor true w = .ok m w
  /-- A call with its number calls it, and that is the call that the watch does not let through. -/
  outOfTurn : ∀ fuel kind h id slots m values v c, (method id : Entry (Ledger H) _) w = .ok m w →
    w.IsInitializer m → ¬ w.Awaits m.owner →
    (arguments m slots : Entry (Ledger H) _) w = .ok values v →
    (classOf h : Entry (Ledger H) _) v = .ok c v →
    CallsOutOfTurn (invokeUnwatched native fuel) kind [.handle h, .member id, .arguments slots] m
      values w v

section Runs

variable {native : NativeCode (Ledger H)} {w v : World (Ledger H)}

theorem callsOutOfTurn {call : Invoker (Ledger H)} {m : MethodRef} {h : Handle} {id : UInt64}
    {slots : Option (List Slot)} {values : List Value} {c : ClassId} (kind : Kind)
    (hm : (method id : Entry (Ledger H) _) w = .ok m w) (hinit : w.IsInitializer m)
    (hawaits : ¬ w.Awaits m.owner)
    (hargs : (arguments m slots : Entry (Ledger H) _) w = .ok values v)
    (hc : (classOf h : Entry (Ledger H) _) v = .ok c v) :
    CallsOutOfTurn call kind [.handle h, .member id, .arguments slots] m values w v := by
  have hcall : ∀ call : Invoker (Ledger H), callMethod call (.static h) id slots w =
      guest (call m none values) v := fun _ => callMethod_initializer hm hinit hargs hc
  obtain ⟨hinit, hawaits⟩ : v.IsInitializer m ∧ ¬ v.Awaits m.owner := by
    obtain ⟨bridge, rfl⟩ := of_arguments_ok hargs
    exact ⟨hinit, hawaits⟩
  constructor
  case lax =>
    refine bind_congr_from (bind_congr_from ?_)
    rw [hcall, guest, Action.mapError, watching_lax hinit]
    rfl
  case strict =>
    refine Action.bind_halt (Action.bind_halt ?_)
    rw [hcall]
    exact guest_halt (watching_strict hinit hawaits)
  case unaccounted =>
    intro h
    exact hawaits ⟨h.announced List.mem_cons_self, (List.nodup_cons.1 h.calledOnce).1⟩

/-- Over a whole run, whatever classes and native code there are, each static initializer is called
at most once and only for the initialization of its class, except by native code that makes a static
call with its number. -/
theorem initializers_run_once_unless_called (hnative : NativeKeeps KeepsBooks native)
    (hshortens : NativeShortens native) {maxCallDepth : Nat} {memory : HostMemory} {own : H}
    (h : Steps (invokeWatched true native) SameBooks (World.start maxCallDepth memory ⟨own, []⟩) w) :
    InitializersRunOnce native (World.start maxCallDepth memory ⟨own, []⟩) w := by
  have hw : w.Accounted := h.accounted hnative (accounted_start maxCallDepth memory own)
  have hcall : ∀ fuel, CallsKeep KeepsBooks (watching true (invokeUnwatched native fuel)) :=
    fun fuel => keepsBooks_invokeWatched hnative (fuel + 1)
  constructor
  case accounted => exact hw
  case run => exact h.of_shortens (shortens_invokeWatched hshortens)
  case initialization => exact fun fuel c => Guest.initClass_watching (hcall fuel) hw
  case function =>
    intro hr fuel env f args hs hf
    exact callFunction_congr env (perform_watching (hcall fuel) hw hr.wellFormed hs hf)
  case found =>
    intro hr c m hm
    have hc : c.index < w.registry.size := by
      by_contra hge
      have := (Registry.of_initializer? hm).1.2
      rw [Registry.get_of_le (Nat.le_of_not_lt hge)] at this
      exact Nat.not_lt_zero _ this
    rw [Guest.resolveMethod, hr.wellFormed.resolveMethod_initializer hc hm]
    rfl
  case outOfTurn =>
    intro fuel kind h id slots m values v c hm hinit hawaits hargs hc
    exact callsOutOfTurn kind hm hinit hawaits hargs hc

end Runs

/-! ## A class whose initializer leaves a note -/

/-- A class whose static initializer leaves a note in the trace. -/
def once : ClassSpec :=
  ⟨"Once", .concrete, some "java/lang/Object", [], [], [.initializer (.trace "init")]⟩

/-- The name of the class. -/
def onceName : List UInt8 := [79, 110, 99, 101]

/-- What static initializers are called. -/
def initializerBytes : List UInt8 := [60, 99, 108, 105, 110, 105, 116, 62]

/-- Native code that asks for the class. -/
def curious : NativeCode (Ledger Unit) := fun call _ => do
  discard (ask call .findClass [.text (some onceName)])
  return 0

theorem curious_keeps : NativeKeeps KeepsBooks curious := by
  intro call hcall c
  have p := keepsBooks_composable (H := Unit)
  have hask : Keeps KeepsBooks (ask call .findClass [.text (some onceName)]) := fun w =>
    (keepsBooks_neutral.returns_callFunction hcall (ownEnv w) (.findClass _) w).leaves
  exact Keeps.bind p (.discard p hask) fun _ => .pure p _

theorem curious_shortens : NativeShortens curious := by
  intro call call' hcall c
  have hask : Shortens (ask call .findClass [.text (some onceName)])
      (ask call' .findClass [.text (some onceName)]) := fun w =>
    Shortens.callFunction hcall (ownEnv w) (.findClass _) w
  exact Shortens.outcomes.andThen (Shortens.outcomes.andThen hask)

/-- The running thread is attached to a bridge. -/
def attachedTo (w : World H) : World H :=
  { w.setAttachment (some ⟨0, .empty 4096, .empty⟩) with
    linked := true, bridge := some (.empty .default), bridgeHeld := true, attachments := 1 }

theorem sameBooks_attachedTo (w : World (Ledger H)) : SameBooks w (attachedTo w) :=
  ⟨rfl, rfl, rfl, rfl⟩

/-- The class has been defined, and a thread is attached. -/
def onceDefined : World (Ledger Unit) :=
  attachedTo ((World.start World.defaultCallDepth .growing ⟨(), []⟩).defineOrKeep once)

theorem steps_onceDefined (calls : Nat → Invoker (Ledger Unit)) :
    Steps calls SameBooks (World.start World.defaultCallDepth .growing ⟨(), []⟩) onceDefined :=
  .tail (.single (.defines once)) (.aside (sameBooks_attachedTo _))

/-- What a function answers to the attached thread, and the state after it. -/
def asked (strict : Bool) (f : Function) (args : List Argument) (w : World (Ledger Unit)) :
    Option (Returned × World (Ledger Unit)) :=
  match ask (invokeWatched strict curious 1) f args w with
  | .ok answer w => some (answer.returned, w)
  | _ => none

theorem step_asked {strict : Bool} {f : Function} {args : List Argument} {r : Returned}
    {w w' : World (Ledger Unit)} (hs : Shaped f args) (h : asked strict f args w = some (r, w')) :
    Step (invokeWatched strict curious) SameBooks w w' := by
  unfold asked at h
  split at h
  case h_1 answer v hask =>
    cases h
    refine .asks 1 (ownEnv w) hs ?_
    rw [show (callFunction _ _ f args w : Outcome _ Empty Answer) = _ from hask]
    rfl
  case h_2 => cases h

/-- Native code asks for the class, for the number of its initializer, and calls it. -/
def reruns (strict : Bool) : Option (World (Ledger Unit)) :=
  match asked strict .findClass [.text (some onceName)] onceDefined with
  | some (.handle h, w) =>
    match asked strict (.getMethodId .static)
        [.handle h, .text (some initializerBytes), .text (some [40, 41, 86])] w with
    | some (.member id, w) =>
      (asked strict (.call .static .void) [.handle h, .member id, .arguments none] w).map Prod.snd
    | _ => none
  | _ => none

theorem steps_reruns {strict : Bool} {w : World (Ledger Unit)} (h : reruns strict = some w) :
    Steps (invokeWatched strict curious) SameBooks (World.start World.defaultCallDepth .growing ⟨(), []⟩)
      w := by
  unfold reruns at h
  split at h
  case h_2 => cases h
  case h_1 handle w₁ hfind =>
    split at h
    case h_2 => cases h
    case h_1 id w₂ hnumber =>
      obtain ⟨⟨r, w₃⟩, hcall, rfl⟩ := Option.map_eq_some_iff.1 h
      have hfound := (steps_onceDefined _).tail (step_asked (.findClass _) hfind)
      have hnumbered := hfound.tail (step_asked (.getMethodId ..) hnumber)
      exact hnumbered.tail (step_asked (.callStatic ..) hcall)

theorem once_is_initialized_once :
    NativeKeeps KeepsBooks curious ∧ NativeShortens curious ∧ ∃ w,
      Steps (invokeWatched true curious) SameBooks
        (World.start World.defaultCallDepth .growing ⟨(), []⟩) w ∧
      InitializersRunOnce curious (World.start World.defaultCallDepth .growing ⟨(), []⟩) w ∧
      w.host.called = [⟨28⟩] ∧ w.trace = ["init"] := by
  have hrun : (asked true .findClass [.text (some onceName)] onceDefined).map
      (fun p => (p.2.host.called, p.2.trace)) = some ([⟨28⟩], ["init"]) := by decide +kernel
  obtain ⟨⟨r, w⟩, hfind, hw⟩ := Option.map_eq_some_iff.1 hrun
  obtain ⟨hcalled, htrace⟩ := Prod.mk.inj hw
  have hsteps := (steps_onceDefined _).tail (step_asked (.findClass _) hfind)
  exact ⟨curious_keeps, curious_shortens, w, hsteps,
    initializers_run_once_unless_called curious_keeps curious_shortens hsteps, hcalled, htrace⟩

/-- The initializer runs when the class is found, and again when native code calls it. -/
theorem initializer_is_called_twice :
    (reruns false).map (fun w => (w.host.called, w.started, w.trace)) =
      some ([⟨28⟩, ⟨28⟩], [⟨28⟩], ["init", "init"]) ∧
    ¬ ∀ (native : NativeCode (Ledger Unit)) (maxCallDepth : Nat) (memory : HostMemory)
        (w : World (Ledger Unit)),
      NativeKeeps KeepsBooks native →
      Steps (invokeWatched false native) SameBooks (World.start maxCallDepth memory ⟨(), []⟩) w →
      w.host.called.Nodup := by
  have hrun : (reruns false).map (fun w => (w.host.called, w.started, w.trace)) =
      some ([⟨28⟩, ⟨28⟩], [⟨28⟩], ["init", "init"]) := by decide +kernel
  refine ⟨hrun, fun hall => ?_⟩
  obtain ⟨w, hreruns, hw⟩ := Option.map_eq_some_iff.1 hrun
  have hnodup := hall curious _ _ w curious_keeps (steps_reruns hreruns)
  rw [(Prod.mk.inj hw).1] at hnodup
  exact absurd hnodup (by decide)

end Interface

end GuestBoundary
