import GuestBoundary.Proofs.Effects.Evaluation
import GuestBoundary.Proofs.Guest.Initialization
import GuestBoundary.Proofs.Interface.Failures

/-!
# Two ways to call methods

Guest code and the functions of the interface call methods through an `Invoker`.  With two of them
there are two runs from each state, and a relation between what these come to that is an
`OutcomeCongruence` holds between the runs if it holds between the calls: it goes through the
initialization of classes (`initClass`), all guest code (`guest`) and every function of the interface
(`perform`).
-/

namespace GuestBoundary

variable {H : Type}

/-- What goes on from the same outcome. -/
theorem Action.bind_related {ε α β : Type} {L : Outcome H ε β → Outcome H ε β → Prop}
    (refl : ∀ o, L o o) {a a' : Action H ε α} {f f' : α → Action H ε β} {w : World H}
    (ha : a w = a' w) (hf : ∀ x w', L (f x w') (f' x w')) : L ((a >>= f) w) ((a' >>= f') w) := by
  rw [bind_congr ha]
  cases h : a' w with
  | ok x v =>
    rw [bind_ok h, bind_ok h]
    exact hf x v
  | error e v =>
    rw [bind_error h, bind_error h]
    exact refl _
  | panic m v =>
    rw [bind_panic h, bind_panic h]
    exact refl _
  | halt r v =>
    rw [bind_halt h, bind_halt h]
    exact refl _

/-- The relation goes through what is done after an action, around it and with its result. -/
structure OutcomeCongruence (L : ∀ {ε α : Type}, Outcome H ε α → Outcome H ε α → Prop) : Prop where
  refl : ∀ {ε α : Type} (o : Outcome H ε α), L o o
  bind : ∀ {ε α β : Type} {a a' : Action H ε α} {f f' : α → Action H ε β} {w : World H},
    L (a w) (a' w) → (∀ x w', L (f x w') (f' x w')) → L ((a >>= f) w) ((a' >>= f') w)
  result : ∀ {ε δ α : Type} {a a' : Action H ε α} {w : World H}, L (a w) (a' w) →
    L (a.result w : Outcome H δ (Except ε α)) (a'.result w)
  mapError : ∀ {ε δ α : Type} {a a' : Action H ε α} (g : ε → δ) {w : World H}, L (a w) (a' w) →
    L (a.mapError g w) (a'.mapError g w)
  andFinally : ∀ {ε α : Type} {a a' : Action H ε α} (g : World H → World H) {w : World H},
    L (a w) (a' w) → L (a.andFinally g w) (a'.andFinally g w)

/-- The relation holds between what the actions come to, wherever they start. -/
def Compared (L : ∀ {ε α : Type}, Outcome H ε α → Outcome H ε α → Prop) {ε α : Type}
    (a a' : Action H ε α) : Prop := ∀ w, L (a w) (a' w)

namespace OutcomeCongruence

variable {L : ∀ {ε α : Type}, Outcome H ε α → Outcome H ε α → Prop} (k : OutcomeCongruence L)
include k

/-! ## Actions in a row -/

section Rows

variable {ε δ α β : Type} {a a' : Action H ε α} {f f' : α → Action H ε β}

theorem same (a : Action H ε α) : Compared L a a := fun w => k.refl (a w)

theorem bindAll (ha : Compared L a a') (hf : ∀ x, Compared L (f x) (f' x)) :
    Compared L (a >>= f) (a' >>= f') := fun w => k.bind (ha w) hf

/-- What goes on after the same beginning. -/
theorem after (hf : ∀ x, Compared L (f x) (f' x)) : Compared L (a >>= f) (a >>= f') :=
  k.bindAll (k.same a) hf

/-- What goes on in the same way. -/
theorem andThen (ha : Compared L a a') : Compared L (a >>= f) (a' >>= f) :=
  k.bindAll ha fun x => k.same (f x)

theorem results (ha : Compared L a a') :
    Compared L (a.result : Action H δ (Except ε α)) a'.result := fun w => k.result (ha w)

theorem errors (g : ε → δ) (ha : Compared L a a') :
    Compared L (a.mapError g) (a'.mapError g) := fun w => k.mapError g (ha w)

theorem holding (objects : List ObjectRef) (ha : Compared L a a') :
    Compared L (Action.holding objects a) (Action.holding objects a') := fun w =>
  k.andFinally (fun after => { after with held := w.held }) (ha _)

theorem inCall (ha : Compared L a a') : Compared L (Guest.inCall a) (Guest.inCall a') := fun _ =>
  k.andFinally _ (ha _)

end Rows

variable {call call' : Invoker H}

/-! ## Guest code -/

section Calls

variable (hcall : CallsRelated (fun a a' => Compared L a a') call call')
include hcall

theorem initClassWithin (depth : Nat) (c : ClassId) :
    Compared L (Guest.initClassWithin call depth c) (Guest.initClassWithin call' depth c) := by
  induction depth generalizing c with
  | zero => exact k.same _
  | succ depth ih =>
    intro w
    rw [Guest.initClassWithin_succ, Guest.initClassWithin_succ]
    cases (w.classState c).init with
    | done => exact k.refl _
    | running t => exact k.refl _
    | failed => exact k.refl _
    | untouched =>
      have hsuper : Compared L (Guest.initSuper call w.registry depth c)
          (Guest.initSuper call' w.registry depth c) := by
        unfold Guest.initSuper
        cases (w.registry.get c).superclass with
        | some s => exact ih s
        | none => exact k.same _
      have hown : Compared L (Guest.runInitializer call w.registry c)
          (Guest.runInitializer call' w.registry c) := by
        unfold Guest.runInitializer
        cases w.registry.initializer? c with
        | some m => exact k.after fun _ => k.andThen (hcall m none [])
        | none => exact k.same _
      rw [Guest.runInitializers_eq, Guest.runInitializers_eq]
      have hrun := k.bindAll hsuper fun _ => hown
      exact k.bind (k.result (hrun _)) fun ended => k.same _

theorem initClass (c : ClassId) :
    Compared L (Guest.initClass call c) (Guest.initClass call' c) := k.initClassWithin hcall _ c

end Calls

theorem guest : GuestCongruence (H := H) fun a a' => Compared L a a' where
  plain _ := k.same _
  bind := k.bindAll
  holding := k.holding
  initClass := k.initClass
  fail _ := k.same _
  panic _ := k.same _
  result := k.results

/-! ## Functions of the interface -/

section Interface

open Interface Entry

variable (hcall : CallsRelated (fun a a' => Compared L a a') call call')
include hcall

theorem staticField (h : Handle) (id : UInt64) :
    Compared L (staticField call h id) (staticField call' h id) := by
  refine k.after fun _ => k.after fun f => k.after fun r => ?_
  split
  · exact k.andThen (k.errors _ (k.initClass hcall f.owner))
  · exact k.same _

theorem newObject (h : Handle) (id : UInt64) (slots : Option (List Slot)) :
    Compared L (newObject call h id slots) (newObject call' h id slots) := by
  refine k.after fun c => k.after fun m => k.after fun r => ?_
  split
  · exact k.after fun args => k.andThen (k.errors _ (k.guest.constructWith hcall c m args))
  · exact k.same _

theorem exceptionDescribe : Compared L (exceptionDescribe call) (exceptionDescribe call') := by
  refine k.after fun pending => ?_
  cases pending with
  | none => exact k.same _
  | some o =>
    have hreport : Compared L (report call o) (report call' o) :=
      k.guest.toGuestRules.report hcall o
    exact k.after fun _ => k.andThen (k.andThen (k.holding [o] (k.results hreport)))

theorem callMethod (target : CallTarget) (id : UInt64) (slots : Option (List Slot)) :
    Compared L (callMethod call target id slots) (callMethod call' target id slots) := by
  refine k.after fun m => k.after fun r => ?_
  split
  · exact k.same _
  · refine k.after fun args => ?_
    cases target with
    | «virtual» receiver =>
      exact k.after fun o => k.after fun selected => k.errors _ (hcall selected (some o) args)
    | nonvirtual receiver owner =>
      refine k.after fun o => k.after fun c => k.after fun w => ?_
      split
      · exact k.errors _ (hcall m (some o) args)
      · exact k.same _
    | static owner => exact k.after fun _ => k.errors _ (hcall m none args)

theorem perform {f : Function} {args : List Argument} (hs : Shaped f args) :
    Compared L (perform call f args) (perform call' f args) := by
  cases hguest : f.runsGuest with
  | false =>
    rw [perform_eq_of_not_runsGuest hs hguest call call']
    exact k.same _
  | true =>
    cases hs with
    | findClass name =>
      exact k.andThen (k.after fun _ => k.after fun c =>
        k.andThen (k.errors _ (k.initClass hcall c)))
    | allocObject h =>
      exact k.andThen (k.after fun c => k.andThen (k.errors _ (k.guest.allocate hcall c)))
    | newObject h id slots => exact k.andThen (k.newObject hcall h id slots)
    | throwNew h message =>
      exact k.andThen (k.after fun c =>
        k.andThen (k.errors _ (k.guest.newThrowable hcall c _)))
    | exceptionDescribe => exact k.andThen (k.exceptionDescribe hcall)
    | getMethodId mode h name descriptor =>
      exact k.andThen (k.after fun c => k.andThen (k.errors _ (k.initClass hcall c)))
    | getFieldId mode h name descriptor =>
      exact k.andThen (k.after fun c => k.andThen (k.errors _ (k.initClass hcall c)))
    | callVirtual kind h id slots => exact k.andThen (k.andThen (k.callMethod hcall _ id slots))
    | callNonvirtual kind h c id slots =>
      exact k.andThen (k.andThen (k.callMethod hcall _ id slots))
    | callStatic kind c id slots => exact k.andThen (k.andThen (k.callMethod hcall _ id slots))
    | getField mode kind h id =>
      cases mode with
      | perObject => cases hguest
      | static => exact k.andThen (k.andThen (k.staticField hcall h id))
    | setField mode kind h id value =>
      cases mode with
      | perObject => cases hguest
      | static => exact k.andThen (k.andThen (k.staticField hcall h id))
    | _ => cases hguest

end Interface

end OutcomeCongruence

end GuestBoundary
