import GuestBoundary.Proofs.Effects.Attachment
import GuestBoundary.Proofs.Effects.Congruence
import GuestBoundary.Proofs.Interface.Outcomes

/-!
# Runs that end early

An action `Shortens` another one if it does the same, unless it ends the run.  That goes through
guest code and functions of the interface (`Shortens.outcomes`), and native methods shorten
themselves, if the calls that they make shorten those of the other side.  So a run whose calls may be cut short is, as far as it goes, a run without that
(`World.Steps.of_shortens`).
-/

namespace GuestBoundary

variable {H ε δ α β : Type}

/-- The first outcome is the second one, unless it is the end of the run. -/
def Outcome.Shortens (o o' : Outcome H ε α) : Prop := o = o' ∨ ∃ reason v, o = .halt reason v

/-- The first action does what the second one does, unless it ends the run. -/
def Shortens (a a' : Action H ε α) : Prop := Compared (fun o o' => o.Shortens o') a a'

namespace Shortens

/-! ## The rules -/

theorem outcomes : OutcomeCongruence (H := H) fun o o' => o.Shortens o' where
  refl _ := .inl rfl
  bind ha hf := by
    rcases ha with heq | ⟨reason, v, hhalt⟩
    · exact Action.bind_related (fun _ => .inl rfl) heq hf
    · exact .inr ⟨reason, v, Action.bind_halt hhalt⟩
  result ha := by
    rcases ha with heq | ⟨reason, v, hhalt⟩
    · exact .inl (Action.result_congr heq)
    · exact .inr ⟨reason, v, Action.result_halt hhalt⟩
  mapError g w ha := by
    rcases ha with heq | ⟨reason, v, hhalt⟩
    · exact .inl (by rw [Action.mapError, Action.mapError, heq])
    · exact .inr ⟨reason, v, by rw [Action.mapError, hhalt]⟩
  andFinally g w ha := by
    rcases ha with heq | ⟨reason, v, hhalt⟩
    · exact .inl (Action.andFinally_congr heq)
    · exact .inr ⟨reason, v, by rw [Action.andFinally, hhalt]⟩

/-- Where the first action leaves a state behind, so does the second one. -/
theorem after? {a a' : Action H ε α} (ha : Shortens a a') {w v : World H}
    (h : (a w).after? = some v) : (a' w).after? = some v := by
  rcases ha w with heq | ⟨reason, u, hhalt⟩
  · rwa [← heq]
  · rw [hhalt] at h
    cases h

theorem callFunction {call call' : Invoker H}
    (hcall : CallsRelated (fun a a' => Shortens a a') call call') (env : Option Env)
    {f : Interface.Function} {args : List Interface.Argument} (hs : Interface.Shaped f args) :
    Shortens (Interface.callFunction call env f args : Action H ε Interface.Answer)
      (Interface.callFunction call' env f args) := by
  refine outcomes.after fun _ w => ?_
  rcases outcomes.perform hcall hs w with heq | ⟨reason, v, hhalt⟩
  · exact .inl (Interface.contain_congr heq)
  · exact .inr ⟨reason, v, Interface.contain_halt hhalt⟩

end Shortens

/-! ## Native methods -/

/-- Native code shortens itself if the calls that it makes do. -/
def NativeShortens (native : NativeCode H) : Prop :=
  ∀ {call call' : Invoker H}, CallsRelated (fun a a' => Shortens a a') call call' →
    ∀ c, Shortens (native call c) (native call' c)

namespace Shortens

variable {native : NativeCode H} {call call' : Invoker H} (hnative : NativeShortens native)
  (hcall : CallsRelated (fun a a' => Shortens a a') call call')
include hnative hcall

theorem runMethod (env : Env) (m : MethodRef) (receiver : Option ObjectRef) (args : List Value) :
    Shortens (Native.runMethod native call env m receiver args)
      (Native.runMethod native call' env m receiver args) := by
  have k := outcomes (H := H)
  have hbound : ∀ binding o, Shortens (Native.callBound native call env binding o args)
      (Native.callBound native call' env binding o args) := by
    intro binding o
    refine k.after fun _ => k.andThen (k.results ?_)
    exact k.after fun _ => k.after fun _ => k.andThen (k.errors _ (hnative hcall _))
  refine k.after fun r => k.after fun binding => k.after fun b => ?_
  dsimp only
  split
  · refine k.after fun _ => ?_
    cases receiver with
    | none => exact k.after (hbound binding)
    | some o => exact hbound binding o
  · cases receiver with
    | none => exact k.after (hbound binding)
    | some o => exact hbound binding o

theorem nativeInvoke : CallsRelated (fun a a' => Shortens a a') (Native.invoke native call)
    (Native.invoke native call') := by
  have k := outcomes (H := H)
  intro m receiver args
  refine k.after fun w => ?_
  dsimp only
  split
  · exact k.same _
  · exact k.after fun env =>
      k.andThen (k.results (runMethod hnative hcall env m receiver args))

theorem invokeWith : CallsRelated (fun a a' => Shortens a a') (Guest.invokeWith native call)
    (Guest.invokeWith native call') := by
  have k := outcomes (H := H)
  intro m receiver args
  refine k.after fun w => ?_
  dsimp only
  split
  · exact k.same _
  · refine k.holding _ (k.inCall ?_)
    split
    · refine k.bindAll (k.guest.checkReceiver hcall m receiver) fun _ => ?_
      exact k.guest.runBody receiver args hcall (nativeInvoke hnative hcall) m
    · exact k.same _

end Shortens

/-! ## Whole runs -/

/-- What happens with calls that may be cut short happens with the calls as they are. -/
theorem World.Steps.of_shortens {calls calls' : Nat → Invoker H} {aside : World H → World H → Prop}
    {w w' : World H}
    (hcalls : ∀ fuel, CallsRelated (fun a a' => Shortens a a') (calls fuel) (calls' fuel))
    (h : World.Steps calls aside w w') : World.Steps calls' aside w w' := by
  refine Relation.ReflTransGen.mono (fun v v' hstep => ?_) w w' h
  cases hstep with
  | calls fuel m receiver args h => exact .calls fuel m receiver args ((hcalls fuel _ _ _).after? h)
  | asks fuel env hs h =>
    exact .asks fuel env hs ((Shortens.callFunction (hcalls fuel) env hs).after? h)
  | initializes fuel c h =>
    exact .initializes fuel c (Shortens.after? (Shortens.outcomes.initClass (hcalls fuel) c) h)
  | defines spec => exact .defines spec
  | aside h => exact .aside h

end GuestBoundary
