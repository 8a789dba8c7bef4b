import GuestBoundary.Guest.Invocation
import GuestBoundary.Proofs.Classes.Dispatch
import GuestBoundary.Proofs.Guest.Initialization
import GuestBoundary.Proofs.Interface.Outcomes
import GuestBoundary.Proofs.Locals.Nesting

/-!
# The receivers of calls

Native code calls a method on an object in three ways: with the implementation that the object's
class selects, as the method stands, or on an object that is made for it.  Each has checks of its
own.  For a receiver that is an instance of the class that declares the method they suffice; for a
stranger `ObjectCall.runs_on_instances_unless` says which calls raise and which ones get through.

What runs is told apart by what a check in front of every method would change (`Guest.checked`): if
nothing, no method runs on a stranger.
-/

namespace GuestBoundary

variable {H ε α β : Type}

/-! ## A check in front of every method -/

namespace Guest

variable {r : Registry} {call : Invoker H} {m : MethodRef} {o : ObjectRef} {args : List Value}
  {w : World H}

/-- Calls methods as `call` does, but ends the run instead of a call whose receiver is no instance
of the class that declares the method. -/
def checked (r : Registry) (call : Invoker H) : Invoker H := fun m receiver args w =>
  if receiver.all fun o => r.isSubclass (w.classOf o) m.owner then call m receiver args w
  else .halt .misuse w

theorem checked_none (m : MethodRef) (args : List Value) :
    checked r call m none args = call m none args := rfl

theorem checked_of_isSubclass (h : r.isSubclass (w.classOf o) m.owner = true) :
    checked r call m (some o) args w = call m (some o) args w := if_pos h

theorem checked_of_not_isSubclass (h : r.isSubclass (w.classOf o) m.owner = false) :
    checked r call m (some o) args w = .halt .misuse w := by
  refine if_neg ?_
  rw [Option.all_some, h]
  exact Bool.false_ne_true

/-- Static initializers have no receiver. -/
theorem initClass_checked (r : Registry) (call : Invoker H) (c : ClassId) :
    initClass (checked r call) c = initClass call c := by
  suffices ∀ depth c, initClassWithin (checked r call) depth c = initClassWithin call depth c from
    this _ c
  intro depth
  induction depth with
  | zero => exact fun _ => rfl
  | succ depth ih =>
    intro c
    simp only [initClassWithin, ih, checked_none]

theorem allocate_checked (r : Registry) (call : Invoker H) (c : ClassId) :
    allocate (checked r call) c = allocate call c := by
  rw [allocate, allocate, initClass_checked]

/-- A new instance suits the constructors of its superclasses. -/
theorem constructWith_checked {c : ClassId} (hsub : r.isSubclass c m.owner = true) :
    constructWith (checked r call) c m args = constructWith call c m args := by
  funext w
  refine Action.holding_congr ?_
  rw [allocate_checked]
  generalize { w with held := args.filterMap Value.object? ++ w.held } = w
  cases hnew : allocate call c w with
  | ok o w₁ =>
    rw [Action.bind_ok hnew, Action.bind_ok hnew]
    refine Action.bind_congr (Action.holding_congr (Action.bind_congr ?_))
    refine checked_of_isSubclass ?_
    rwa [← classOf_of_allocate hnew] at hsub
  | error e w₁ => rw [Action.bind_error hnew, Action.bind_error hnew]
  | panic message w₁ => rw [Action.bind_panic hnew, Action.bind_panic hnew]
  | halt reason w₁ => rw [Action.bind_halt hnew, Action.bind_halt hnew]

end Guest

/-! ## What becomes of a call -/

section Verdict

open Interface

variable {r : Registry} {w : World H}

/-- Native code learns of a failure, which no method has a part in. -/
def Refuses (F : Invoker H → Outcome H EntryError α) : Prop :=
  ∃ e w', e.IsRaised ∧ w'.attachment.isSome = true ∧ ∀ call, F call = .error e w'

/-- The thread waits for another one to initialize a class before any method is called. -/
def Waits (F : Invoker H → Outcome H ε α) : Prop :=
  ∃ d w', ∀ call, F call = .halt (.deadlock (.initialization d)) w'

/-- A check of the receivers in front of every method makes no difference. -/
def Suited (r : Registry) (F : Invoker H → Outcome H ε α) : Prop :=
  ∀ call, F (Guest.checked r call) = F call

/-- Some methods never come back, but with a check of the receivers they are not called. -/
def Strays (r : Registry) (F : Invoker H → Outcome H ε α) : Prop :=
  ∃ call w' w'', F call = .halt .outOfFuel w' ∧ F (Guest.checked r call) = .halt .misuse w''

/-- What becomes of a call on a receiver that suits the method or does not, where the function
proceeds to the method or not, and may wait for the class or not. -/
structure Verdict (r : Registry) (suits : Bool) (proceeds waits : Prop)
    (F : Invoker H → Outcome H EntryError α) : Prop where
  suited : suits = true → Suited r F
  strays : suits = false → proceeds → Strays r F
  refuses : suits = false → ¬ proceeds → Refuses F ∨ (waits ∧ Waits F)

variable {suits : Bool} {proceeds waits : Prop}

/-- What follows a call does not change its fate. -/
theorem Verdict.bind {A : Invoker H → Entry H α} {f : α → Entry H β}
    (v : Verdict r suits proceeds waits fun call => A call w) :
    Verdict r suits proceeds waits fun call => (A call >>= f) w where
  suited := fun h call => Action.bind_congr (v.suited h call)
  strays := fun h hp => by
    obtain ⟨call, w', w'', hcall, hchecked⟩ := v.strays h hp
    exact ⟨call, w', w'', Action.bind_halt hcall, Action.bind_halt hchecked⟩
  refuses := fun h hp => by
    rcases v.refuses h hp with ⟨e, w', he, ha, hfails⟩ | ⟨hw, d, w', hwaits⟩
    · exact .inl ⟨e, w', he, ha, fun call => Action.bind_error (hfails call)⟩
    · exact .inr ⟨hw, d, w', fun call => Action.bind_halt (hwaits call)⟩

theorem Verdict.congr {F : Invoker H → Outcome H EntryError α} {proceeds' : Prop}
    (v : Verdict r suits proceeds waits F) (h : proceeds' ↔ proceeds) :
    Verdict r suits proceeds' waits F :=
  ⟨v.suited, fun hs hp => v.strays hs (h.1 hp), fun hs hp => v.refuses hs fun hp' => hp (h.2 hp')⟩

theorem Verdict.of_refuses {F : Invoker H → Outcome H EntryError α} (hp : ¬ proceeds)
    (h : Refuses F) : Verdict r suits proceeds waits F where
  suited := fun _ call => by
    obtain ⟨e, w', -, -, hfails⟩ := h
    rw [hfails, hfails]
  strays := fun _ h => absurd h hp
  refuses := fun _ _ => .inl h

theorem suited_call {n : MethodRef} {o : ObjectRef} {args : List Value}
    (h : r.isSubclass (w.classOf o) n.owner = true) :
    Suited r fun call => Entry.guest (call n (some o) args) w := by
  intro call
  exact Entry.guest_congr (Guest.checked_of_isSubclass h)

theorem strays_call {n : MethodRef} {o : ObjectRef} {args : List Value}
    (h : r.isSubclass (w.classOf o) n.owner = false) :
    Strays r fun call => Entry.guest (call n (some o) args) w := by
  exact ⟨fun _ _ _ => Action.halt .outOfFuel, w, w, rfl,
    Entry.guest_halt (Guest.checked_of_not_isSubclass h)⟩

theorem Verdict.of_call {n : MethodRef} {o : ObjectRef} {args : List Value} (hp : proceeds) :
    Verdict r (r.isSubclass (w.classOf o) n.owner) proceeds waits fun call =>
      Entry.guest (call n (some o) args) w where
  suited := suited_call
  strays := fun h _ => strays_call h
  refuses := fun _ h => absurd hp h

/-! ## Calls on an object -/

variable {b : Bridge} {m : MethodRef} {id : UInt64} {h : Handle} {o : ObjectRef}
  {slots : Option (List Slot)}

/-- Whether the arguments for a method are in order. -/
def argumentsFit (w : World H) (m : MethodRef) (slots : Option (List Slot)) : Bool :=
  match Entry.arguments m slots w with
  | .ok _ _ => true
  | _ => false

/-- Arguments in order are read without a trace, and others raise. -/
theorem arguments_cases (m : MethodRef) (slots : Option (List Slot)) (hb : w.bridge = some b) :
    ∃ w', World.Alike w w' ∧
      ((argumentsFit w m slots = true ∧ ∃ args, Entry.arguments m slots w = .ok args w') ∨
        (argumentsFit w m slots = false ∧
          ∃ e : EntryError, e.IsRaised ∧ Entry.arguments m slots w = .error e w')) := by
  unfold argumentsFit
  obtain ⟨w', alike, ⟨args, h⟩ | ⟨e, he, h⟩⟩ := Entry.arguments_cases m slots hb
  · exact ⟨w', alike, .inl ⟨by rw [h], args, h⟩⟩
  · exact ⟨w', alike, .inr ⟨by rw [h], e, he, h⟩⟩

theorem arguments_of_fit (hb : w.bridge = some b) (hfits : argumentsFit w m slots = true) :
    ∃ args w', World.Alike w w' ∧ Entry.arguments m slots w = .ok args w' := by
  obtain ⟨w', alike, ⟨-, args, h⟩ | ⟨hfits', -⟩⟩ := arguments_cases m slots hb
  · exact ⟨args, w', alike, h⟩
  · rw [hfits] at hfits'
    cases hfits'

/-- Calls a method of the right sort with its arguments. -/
def callTarget (call : Invoker H) (m : MethodRef) (args : List Value) : CallTarget → Entry H Value
  | .virtual receiver => do
    let o ← Entry.require receiver "receiver"
    let selected ← Entry.guest (Guest.dispatch o m)
    Entry.guest (call selected (some o) args)
  | .nonvirtual receiver owner => do
    let o ← Entry.require receiver "receiver"
    let c ← Entry.classOf owner
    let w ← Action.world
    if w.isInstance o c then Entry.guest (call m (some o) args)
    else Entry.fault .illegalArgument (w.dottedName o ++ " is not a " ++ w.registry.dottedName c)
  | .static owner => do
    discard (Entry.classOf owner)
    Entry.guest (call m none args)

theorem callMethod_eq {target : CallTarget} {args : List Value} {w₁ : World H}
    (hb : w.bridge = some b) (hm : b.methods.find id = .ok m)
    (hstatic : (w.registry.method m).isStatic = target.isStatic)
    (hargs : Entry.arguments m slots w = .ok args w₁) (call : Invoker H) :
    callMethod call target id slots w = callTarget call m args target w₁ := by
  have hread : (Action.read World.registry w : Outcome H EntryError _) = .ok w.registry w := rfl
  have hsort : ¬ ((w.registry.method m).isStatic != target.isStatic) = true := by simp [hstatic]
  rw [callMethod, Action.bind_ok (Entry.method_eq hb hm), Action.bind_ok hread, if_neg hsort,
    Action.bind_ok hargs]
  cases target <;> rfl

/-- A method of the wrong sort, or arguments that are not in order. -/
theorem callMethod_refuses {target : CallTarget} (ha : w.attachment.isSome = true)
    (hb : w.bridge = some b) (hm : b.methods.find id = .ok m)
    (hfits : ¬ ((w.registry.method m).isStatic = target.isStatic ∧ argumentsFit w m slots = true)) :
    Refuses fun call => callMethod call target id slots w := by
  have hread : (Action.read World.registry w : Outcome H EntryError _) = .ok w.registry w := rfl
  by_cases hstatic : (w.registry.method m).isStatic = target.isStatic
  · have hsort : ¬ ((w.registry.method m).isStatic != target.isStatic) = true := by simp [hstatic]
    obtain ⟨w₁, alike, ⟨hfits', -⟩ | ⟨-, e, he, hargs⟩⟩ := arguments_cases m slots hb
    · exact absurd ⟨hstatic, hfits'⟩ hfits
    · refine ⟨e, w₁, he, ?_, fun call => ?_⟩
      · rwa [World.attachment, alike.thread]
      show callMethod call target id slots w = _
      rw [callMethod, Action.bind_ok (Entry.method_eq hb hm), Action.bind_ok hread, if_neg hsort,
        Action.bind_error hargs]
  · have hsort : ((w.registry.method m).isStatic != target.isStatic) = true := by simp [hstatic]
    let fault : GuestFault := ⟨.illegalArgument, w.registry.describeMethod m ++ " called as " ++
      if target.isStatic then "static" else "instance method"⟩
    refine ⟨.fault fault, w, EntryError.isRaised_fault _, ha, fun call => ?_⟩
    show callMethod call target id slots w = _
    rw [callMethod, Action.bind_ok (Entry.method_eq hb hm), Action.bind_ok hread, if_pos hsort]
    rfl

/-- Reading the arguments first does not change what a call becomes, if they are in order. -/
theorem verdict_callMethod {p : Prop} {target : CallTarget} (ha : w.attachment.isSome = true)
    (hb : w.bridge = some b) (hm : b.methods.find id = .ok m)
    (v : ∀ args w₁, World.Alike w w₁ → (w.registry.method m).isStatic = target.isStatic →
      Verdict r suits p waits fun call => callTarget call m args target w₁) :
    Verdict r suits (argumentsFit w m slots = true ∧
        (w.registry.method m).isStatic = target.isStatic ∧ p) waits
      fun call => callMethod call target id slots w := by
  by_cases hfits : (w.registry.method m).isStatic = target.isStatic ∧ argumentsFit w m slots = true
  case neg => exact .of_refuses (fun hp => hfits ⟨hp.2.1, hp.1⟩) (callMethod_refuses ha hb hm hfits)
  obtain ⟨hstatic, hfits⟩ := hfits
  obtain ⟨args, w₁, alike, hargs⟩ := arguments_of_fit hb hfits
  simp only [callMethod_eq hb hm hstatic hargs]
  exact (v args w₁ alike hstatic).congr (by simp [hfits, hstatic])

/-- What a virtual call becomes.  Constructors are not looked at any further. -/
theorem verdict_virtual {args : List Value} (wf : w.registry.WellFormed)
    (ha : w.attachment.isSome = true) (hstatic : (w.registry.method m).isStatic = false)
    (ho : w.resolve h = some o) :
    Verdict w.registry (w.registry.isSubclass (w.classOf o) m.owner)
      ((w.registry.method m).isConstructor = true) waits
      fun call => callTarget call m args (.virtual h) w := by
  have hd : Guest.dispatch o m w = Guest.ofFault (w.registry.dispatch (w.classOf o) m) w := rfl
  simp only [callTarget, Action.bind_ok (Entry.require_some ho)]
  cases hdispatch : w.registry.dispatch (w.classOf o) m with
  | error f =>
    rw [hdispatch] at hd
    refine .of_refuses (fun hconstructor => ?_) ⟨_, (w.materialize f).2,
      EntryError.isRaised_thrown _, ?_, fun call => Action.bind_error (Entry.guest_error hd)⟩
    · rw [Registry.dispatch_of_isConstructor hconstructor] at hdispatch
      cases hdispatch
    · rwa [World.attachment, (w.sameSide_materialize f).thread]
  | ok n =>
    rw [hdispatch] at hd
    simp only [Action.bind_ok (Entry.guest_ok hd)]
    refine ⟨fun hsub => suited_call (wf.isSubclass_of_dispatch hsub hdispatch), ?_, ?_⟩
    · intro hsub hconstructor
      rw [Registry.dispatch_of_isConstructor hconstructor] at hdispatch
      cases hdispatch
      exact strays_call hsub
    · intro hsub hconstructor
      have hvirtual : (w.registry.method m).isVirtual = true := by
        rw [Method.isVirtual, hstatic, Bool.eq_false_iff.2 hconstructor]
        rfl
      rw [Registry.isSubclass_of_dispatch_eq_ok hvirtual hdispatch] at hsub
      cases hsub

/-- What a nonvirtual call becomes.  The receiver is held against the class that is passed, and not
against the one that declares the method. -/
theorem verdict_nonvirtual {owner : Handle} {args : List Value} (ha : w.attachment.isSome = true)
    (ho : w.resolve h = some o) :
    Verdict w.registry (w.registry.isSubclass (w.classOf o) m.owner)
      (∃ c, w.namedClass? owner = some c ∧ w.registry.isSubclass (w.classOf o) c = true) waits
      fun call => callTarget call m args (.nonvirtual h owner) w := by
  have hworld : (Action.world w : Outcome H EntryError _) = .ok w w := rfl
  simp only [callTarget, Action.bind_ok (Entry.require_some ho)]
  cases hc : w.namedClass? owner with
  | none =>
    obtain ⟨f, hc'⟩ := Entry.classOf_none hc
    refine .of_refuses ?_
      ⟨_, w, EntryError.isRaised_fault f, ha, fun call => Action.bind_error hc'⟩
    rintro ⟨c, hc, -⟩
    cases hc
  | some c =>
    simp only [Action.bind_ok (Entry.classOf_some hc), Action.bind_ok hworld]
    cases hinstance : w.isInstance o c with
    | true =>
      simp only [if_true]
      exact .of_call ⟨c, rfl, hinstance⟩
    | false =>
      refine .of_refuses ?_ ⟨_, w, EntryError.isRaised_fault _, ha, fun call => rfl⟩
      rintro ⟨c', hc', hsub⟩
      cases hc'
      rw [← World.isInstance, hinstance] at hsub
      cases hsub

/-- Initializers answer, and no other method comes back. -/
def onlyInitializers : Invoker H := fun _ receiver _ =>
  match receiver with
  | none => Action.answer .void
  | some _ => Action.halt .outOfFuel

/-- What making an instance becomes: its class is not held against the one that declares the
constructor. -/
theorem verdict_constructWith {c : ClassId} {args : List Value} (hranked : w.registry.Ranked)
    (ha : w.attachment.isSome = true) (hw : waits) :
    Verdict r (r.isSubclass c m.owner)
      ((w.registry.get c).isInstantiable = true ∧ w.canInitialize c = true) waits
      fun call => Entry.guest (Guest.constructWith call c m args) w := by
  let w₀ : World H := { w with held := args.filterMap Value.object? ++ w.held }
  have hcan : w₀.canInitialize c = w.canInitialize c := World.canInitialize_congr rfl rfl rfl
  refine ⟨fun hsub call => Entry.guest_congr (congrFun (Guest.constructWith_checked hsub) w),
    ?_, fun _ hproceeds => ?_⟩
  · rintro hsub ⟨hconcrete, hinit⟩
    have hcall : ∀ m (w : World H), ∃ v w', onlyInitializers m none [] w = .ok v w' :=
      fun _ w => ⟨_, w, rfl⟩
    obtain ⟨o, w₁, hnew⟩ := Guest.allocate_ok (w := w₀) hcall hranked hconcrete (hcan.trans hinit)
    rw [← Guest.classOf_of_allocate hnew] at hsub
    let w₂ : World H := { w₁ with held := [o] ++ w₁.held }
    refine ⟨onlyInitializers, w₂, w₂, Entry.guest_halt (Action.holding_halt ?_),
      Entry.guest_halt (Action.holding_halt ?_)⟩
    · exact (Action.bind_ok hnew).trans (Action.bind_halt (Action.holding_halt rfl))
    · rw [Guest.allocate_checked]
      refine (Action.bind_ok hnew).trans (Action.bind_halt (Action.holding_halt ?_))
      exact Action.bind_halt (Guest.checked_of_not_isSubclass hsub)
  · rw [← hcan] at hproceeds
    rcases Guest.allocate_blocked (w := w₀) hranked hproceeds with
      ⟨o, w', hthread, hfails⟩ | ⟨d, w', hwaits⟩
    · refine .inl ⟨_, { w' with held := w.held }, EntryError.isRaised_thrown o, ?_,
        fun call => Entry.guest_error (Action.holding_error (Action.bind_error (hfails call)))⟩
      show w'.thread.attachment.isSome = true
      rw [hthread]
      exact ha
    · exact .inr ⟨hw, d, w', fun call =>
        Entry.guest_halt (Action.holding_halt (Action.bind_halt (hwaits call)))⟩

/-- What `NewObject` becomes. -/
theorem verdict_newObject {c : ClassId} (hranked : w.registry.Ranked)
    (ha : w.attachment.isSome = true) (hb : w.bridge = some b) (hm : b.methods.find id = .ok m)
    (hc : w.namedClass? h = some c) (hw : waits) :
    Verdict w.registry (w.registry.isSubclass c m.owner)
      (argumentsFit w m slots = true ∧ (w.registry.method m).isConstructor = true ∧
        (w.registry.get c).isInstantiable = true ∧ w.canInitialize c = true) waits
      fun call => newObject call h id slots w := by
  have hread : (Action.read World.registry w : Outcome H EntryError _) = .ok w.registry w := rfl
  simp only [newObject, Action.bind_ok (Entry.classOf_some hc),
    Action.bind_ok (Entry.method_eq hb hm), Action.bind_ok hread]
  cases hconstructor : (w.registry.method m).isConstructor with
  | false =>
    refine .of_refuses (fun hp => Bool.false_ne_true hp.2.1)
      ⟨_, w, EntryError.isRaised_fault _, ha, fun _ => rfl⟩
  | true =>
    simp only [if_true]
    by_cases hfits : argumentsFit w m slots = true
    · obtain ⟨args, w₁, alike, hargs⟩ := arguments_of_fit hb hfits
      simp only [Action.bind_ok hargs]
      have ha₁ : w₁.attachment.isSome = true := by rwa [World.attachment, alike.thread]
      rw [← World.canInitialize_congr alike.registry alike.states alike.thread, ← alike.registry]
      rw [← alike.registry] at hranked
      exact (verdict_constructWith hranked ha₁ hw).bind.congr (by simp [hfits])
    · obtain ⟨w₁, alike, ⟨hfits', -⟩ | ⟨-, e, he, hargs⟩⟩ := arguments_cases m slots hb
      · exact absurd hfits' hfits
      · refine .of_refuses (fun hp => hfits hp.1) ⟨e, w₁, he, ?_, fun _ => Action.bind_error hargs⟩
        rwa [World.attachment, alike.thread]

end Verdict

/-! ## Calls with a receiver -/

namespace Interface

/-- A call that runs a method on an object. -/
inductive ObjectCall where
  /-- The implementation that the class of the receiver selects. -/
  | virtual (k : Kind) (receiver : Handle)
  /-- The method itself, on a receiver of a class. -/
  | nonvirtual (k : Kind) (receiver owner : Handle)
  /-- A constructor, on a new instance of a class. -/
  | construct (owner : Handle)

namespace ObjectCall

def function : ObjectCall → Function
  | virtual k _ => .call .virtual k
  | nonvirtual k _ _ => .call .nonvirtual k
  | construct _ => .newObject

def operands (id : UInt64) (slots : Option (List Slot)) : ObjectCall → List Argument
  | virtual _ receiver => [.handle receiver, .member id, .arguments slots]
  | nonvirtual _ receiver owner =>
    [.handle receiver, .handle owner, .member id, .arguments slots]
  | construct owner => [.handle owner, .member id, .arguments slots]

/-- Native code of the running thread makes the call with the method of a number. -/
def run (c : ObjectCall) (id : UInt64) (slots : Option (List Slot)) (call : Invoker H) :
    Action H ε Answer := fun w =>
  callFunction call (ownEnv w) c.function (c.operands id slots) w

/-- The class of the object, which is passed or made. -/
def receiverClass? (w : World H) : ObjectCall → Option ClassId
  | virtual _ receiver => (w.resolve receiver).map w.classOf
  | nonvirtual _ receiver _ => (w.resolve receiver).map w.classOf
  | construct owner => w.namedClass? owner

/-- Whether the call gets to the method `m` on an object of class `d`, whatever class declares `m`.
Of virtual calls only those of constructors do; nonvirtual ones do if the class that is passed is
above `d`, and constructions if an instance can be made. -/
def proceeds (w : World H) (m : MethodRef) (slots : Option (List Slot)) (d : ClassId) :
    ObjectCall → Bool
  | virtual _ _ => argumentsFit w m slots && !(w.registry.method m).isStatic &&
      (w.registry.method m).isConstructor
  | nonvirtual _ _ owner => argumentsFit w m slots && !(w.registry.method m).isStatic &&
      (w.namedClass? owner).any fun e => w.registry.isSubclass d e
  | construct _ => argumentsFit w m slots && (w.registry.method m).isConstructor &&
      (w.registry.get d).isInstantiable && w.canInitialize d

variable {w : World H} {b : Bridge} {id : UInt64} {m : MethodRef} {d : ClassId}
  {slots : Option (List Slot)}

theorem verdict (c : ObjectCall) (slots : Option (List Slot)) (wf : w.registry.WellFormed)
    (ha : w.attachment.isSome = true) (hb : w.bridge = some b) (hm : b.methods.find id = .ok m)
    (hd : c.receiverClass? w = some d) :
    Verdict w.registry (w.registry.isSubclass d m.owner) (c.proceeds w m slots d = true)
      (c.function = .newObject) fun call => perform call c.function (c.operands id slots) w := by
  cases c with
  | «virtual» k receiver =>
    obtain ⟨o, ho, rfl⟩ := Option.map_eq_some_iff.1 hd
    refine Verdict.bind (Verdict.bind ?_)
    refine (verdict_callMethod ha hb hm (p := (w.registry.method m).isConstructor = true)
      fun args w₁ alike hstatic => ?_).congr (by simp [proceeds, CallTarget.isStatic, and_assoc])
    rw [← alike.registry] at wf hstatic ⊢
    rw [← alike.classOf]
    exact verdict_virtual wf (by rwa [World.attachment, alike.thread]) hstatic
      ((alike.resolve receiver).trans ho)
  | nonvirtual k receiver owner =>
    obtain ⟨o, ho, rfl⟩ := Option.map_eq_some_iff.1 hd
    refine Verdict.bind (Verdict.bind ?_)
    refine (verdict_callMethod ha hb hm (p := ∃ e, w.namedClass? owner = some e ∧
        w.registry.isSubclass (w.classOf o) e = true) fun args w₁ alike _ => ?_).congr
      (by simp [proceeds, CallTarget.isStatic, and_assoc, Option.any_eq_true])
    rw [← alike.registry, ← alike.classOf, ← alike.namedClass?]
    exact verdict_nonvirtual (by rwa [World.attachment, alike.thread])
      ((alike.resolve receiver).trans ho)
  | construct owner =>
    refine Verdict.bind ?_
    exact (verdict_newObject wf.ranked ha hb hm hd rfl).congr (by simp [proceeds, and_assoc])

/-- If the receiver is an instance of the class that declares the method, then so is the receiver of
whatever runs: a check in front of every method would make no difference.  If it is not, the call
raises before any method runs (or waits for another thread to initialize the class of which an
instance is to be made), unless it proceeds, and then the method runs on the stranger. -/
theorem runs_on_instances_unless (c : ObjectCall) (hr : w.registry.Reachable)
    (ha : w.attachment.isSome = true) (hb : w.bridge = some b) (hm : b.methods.find id = .ok m)
    (hd : c.receiverClass? w = some d) :
    (w.registry.isSubclass d m.owner = true → ∀ call,
      (c.run id slots (Guest.checked w.registry call) w : Outcome H ε Answer) =
        c.run id slots call w) ∧
    (w.registry.isSubclass d m.owner = false → c.proceeds w m slots d = true → ∃ call,
      (c.run id slots (Guest.checked w.registry call) w : Outcome H ε Answer) ≠
        c.run id slots call w) ∧
    (w.registry.isSubclass d m.owner = false → c.proceeds w m slots d = false →
      (∃ w', w'.pending.isSome = true ∧ ∀ call,
        (c.run id slots call w : Outcome H ε Answer) = .ok (.plain c.function.failure) w') ∨
      (c.function = .newObject ∧ ∃ d w', ∀ call,
        (c.run id slots call w : Outcome H ε Answer) =
          .halt (.deadlock (.initialization d)) w')) := by
  have v := c.verdict slots hr.wellFormed ha hb hm hd
  have hrun : ∀ call, (c.run id slots call w : Outcome H ε Answer) =
      contain c.function.name (.plain c.function.failure)
        (perform call c.function (c.operands id slots)) w := fun call => callFunction_own ha call
  simp only [hrun]
  refine ⟨fun hsub call => contain_congr (v.suited hsub call), fun hsub hp => ?_, fun hsub hp => ?_⟩
  · obtain ⟨call, w', w'', hcall, hchecked⟩ := v.strays hsub hp
    refine ⟨call, fun h => ?_⟩
    rw [contain_halt hcall, contain_halt hchecked] at h
    cases h
  · rcases v.refuses hsub (Bool.eq_false_iff.1 hp) with
      ⟨e, w', he, ha', hfails⟩ | ⟨hnew, d, w', hwaits⟩
    · obtain ⟨w'', hpending, hraised⟩ := contain_raised (ε := ε) he ha'
      exact .inl ⟨w'', hpending, fun call => hraised (hfails call)⟩
    · exact .inr ⟨hnew, d, w', fun call => contain_halt (hwaits call)⟩

/-! ### Strangers -/

/-- A class whose methods leave a note in the trace. -/
def gauge : ClassSpec :=
  let note (text : String) (v : Value) : Body := .code (.sequence [.trace text, .value v])
  ⟨"Gauge", .concrete, some "java/lang/Object", [], [],
    [⟨"<init>", "()V", false, note "made" .void⟩, ⟨"read", "()I", false, note "read" (.int 7)⟩]⟩

/-- References to a string and to the root class. -/
def strangers : Locals ObjectRef :=
  (Locals.empty 4096).after [.create (some ⟨0⟩), .create (some ⟨1⟩)]

def string : Handle := strangers.handleAt 0

def root : Handle := strangers.handleAt 1

/-- Numbers for the methods of `gauge`. -/
def gaugeBridge : Bridge :=
  { Bridge.empty .default with
    methods := ((MemberTable.empty "method").push ⟨⟨28⟩, 0⟩).push ⟨⟨28⟩, 1⟩ }

/-- A thread with the references, on a bridge with the numbers. -/
def workshop : World Unit :=
  let w := (World.start World.defaultCallDepth .growing ()).defineOrKeep gauge
  let w := (w.newString []).2
  let (mirror, w) := w.newObject CoreClass.classObject.id (.mirror CoreClass.object.id)
  let w := w.setClassState CoreClass.object.id
    { w.classState CoreClass.object.id with mirror := some mirror }
  { w.setAttachment (some ⟨0, strangers, .empty⟩) with
    linked := true, bridge := some gaugeBridge, bridgeHeld := true, attachments := 1 }

/-- What is in the trace after a call from there, unless the call raises. -/
def traceOf (c : ObjectCall) (id : UInt64) : Option (List String) :=
  match c.run id none (Guest.invoke (fun _ _ => Action.halt .misuse) 1) workshop with
  | (.ok _ w : Outcome Unit Empty Answer) => if w.pending.isSome then none else some w.trace
  | _ => none

theorem workshop_reachable : workshop.registry.Reachable := by
  have hregistry : workshop.registry = Registry.basic.defineOrKeep gauge := by
    rw [← Registry.registry_start World.defaultCallDepth .growing (), ← Registry.registry_defineOrKeep]
    rfl
  rw [hregistry]
  exact Registry.Reachable.basic.defineOrKeep (by nofun)

theorem string_is_no_gauge :
    (ObjectCall.virtual .void string).receiverClass? workshop = some CoreClass.string.id ∧
      workshop.registry.isSubclass CoreClass.string.id ⟨28⟩ = false ∧
      (ObjectCall.virtual .void string).proceeds workshop ⟨⟨28⟩, 0⟩ none CoreClass.string.id =
        true := by
  decide +kernel

/-- The constructor is called on the string. -/
theorem virtual_constructor_strays : ∃ call,
    ((ObjectCall.virtual .void string).run 1 none (Guest.checked workshop.registry call) workshop :
      Outcome Unit Empty Answer) ≠ (ObjectCall.virtual .void string).run 1 none call workshop := by
  obtain ⟨hd, hsub, hp⟩ := string_is_no_gauge
  exact ((ObjectCall.virtual .void string).runs_on_instances_unless (m := ⟨⟨28⟩, 0⟩)
    (b := gaugeBridge) workshop_reachable rfl rfl rfl hd).2.1 hsub hp

/-- Methods run on a string and on a new instance of the root class, although these are no instances
of the class that declares them. -/
theorem methods_run_on_strangers :
    workshop.registry.Reachable ∧
    (∀ c ∈ [ObjectCall.virtual .void string, .nonvirtual (.primitive .int) string root,
        .construct root],
      (c.receiverClass? workshop).map (workshop.registry.isSubclass · ⟨28⟩) = some false) ∧
    traceOf (.virtual .void string) 1 = some ["made"] ∧
    traceOf (.nonvirtual (.primitive .int) string root) 2 = some ["read"] ∧
    traceOf (.construct root) 1 = some ["made"] := by
  refine ⟨workshop_reachable, ?_⟩
  decide +kernel

end ObjectCall

end Interface

end GuestBoundary
