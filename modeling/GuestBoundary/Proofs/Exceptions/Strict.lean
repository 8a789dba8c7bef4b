import GuestBoundary.Proofs.Exceptions.Conduct

/-!
# Strict runs

Guest code may throw any object.  A strict run is over where the body of a method throws what is not
throwable; a run that comes to the same end as the strict one is a run in which guest code threw
nothing but throwables.  `Guest.invokeWithin` runs calls in either way, and calls are conducted if
native methods are.
-/

namespace GuestBoundary

variable {H α : Type}

namespace Guest

open World Outcome

/-! ## Runs -/

/-- Runs an action; a strict run is over where it throws what is not throwable. -/
def throwing (strict : Bool) (a : Guest H α) : Guest H α := fun w =>
  match a w with
  | .ok x w => .ok x w
  | .error o w =>
    if strict && !w.isInstance o CoreClass.throwable.id then .halt .misuse w else .error o w
  | .panic message w => .panic message w
  | .halt reason w => .halt reason w

/-- Runs the body of a method, strictly if it is written in guest code. -/
def runBodyWithin (strict : Bool) (native : NativeCode H) (call : Invoker H) : Invoker H :=
  fun m receiver args w =>
    match (w.registry.method m).body with
    | .code _ => throwing strict (runBody native call m receiver args) w
    | _ => runBody native call m receiver args w

/-- Calls a method, in a strict run or not; calls may be nested `fuel` deep. -/
def invokeWithin (strict : Bool) (native : NativeCode H) : Nat → Invoker H
  | 0 => fun _ _ _ => Action.halt .outOfFuel
  | fuel + 1 => callWith (invokeWithin strict native fuel)
      (runBodyWithin strict native (invokeWithin strict native fuel))

theorem throwing_false (a : Guest H α) : throwing false a = a := by
  funext w
  unfold throwing
  cases a w <;> rfl

/-- A run that is not strict is one as any other. -/
theorem invokeWithin_false (native : NativeCode H) (fuel : Nat) :
    invokeWithin false native fuel = invoke native fuel := by
  induction fuel with
  | zero => rfl
  | succ fuel ih =>
    have hbody : runBodyWithin false native (invoke native fuel) =
        runBody native (invoke native fuel) := by
      funext m receiver args w
      unfold runBodyWithin
      cases (w.registry.method m).body <;> dsimp only
      rw [throwing_false]
    rw [invokeWithin, ih, hbody]
    rfl

/-! ## Conduct -/

variable {strict checked : Bool} {n : Nat} {native : NativeCode H} {call body : Invoker H}

/-- What is thrown in a strict run is throwable. -/
theorem Conducts.throwing {a : Guest H α} (ha : Conducts strict false n a) :
    Conducts strict strict n (throwing strict a) := by
  intro w hw
  have := ha w hw
  unfold Guest.throwing
  cases hr : a w with
  | ok x w' =>
    rw [hr] at this
    exact this
  | error o w' =>
    rw [hr] at this
    dsimp only
    split
    case isTrue h => exact (Bool.and_eq_true_iff.1 h).1
    case isFalse h =>
      refine ⟨this.1, fun hstrict => ?_⟩
      rw [hstrict, Bool.true_and, Bool.not_eq_true, Bool.not_eq_false'] at h
      exact h
  | panic m w' =>
    rw [hr] at this
    exact this
  | halt r w' =>
    rw [hr] at this
    exact this

/-- Bodies are conducted if calls are and native methods are. -/
theorem conducts_runBodyWithin (hcall : CallsConduct strict strict n call)
    (hnative : CallsConduct strict strict n (Native.invoke native call)) :
    CallsConduct strict strict n (runBodyWithin strict native call) := by
  intro m receiver args w hw
  have hread : (Action.read World.registry : Guest H Registry) w = .ok w.registry w := rfl
  unfold runBodyWithin
  cases hbody : (w.registry.method m).body with
  | code e =>
    exact ((guest_congruence strict n).runBody receiver args hcall.unchecked hnative.unchecked
      m).throwing w hw
  | intrinsic what =>
    dsimp only
    rw [runBody, Action.bind_ok hread, hbody]
    exact (guest_rules strict strict n).runIntrinsic receiver args what w hw
  | native =>
    dsimp only
    rw [runBody, Action.bind_ok hread, hbody]
    exact hnative m receiver args w hw
  | abstract =>
    dsimp only
    rw [runBody, Action.bind_ok hread, hbody]
    exact Conducts.plain (.throwFault _) w hw

/-- One call is conducted if the calls nested in it are and its body is.  Where too many are in
progress, the call is refused. -/
theorem conducts_callWith (hcall : CallsConduct strict strict n call)
    (hbody : CallsConduct strict strict n body) :
    CallsConduct strict strict (n + 1) (callWith call body) := by
  intro m receiver args w hw
  have k := guest_rules (H := H) strict strict n
  show Conducted strict _ w ((if w.thread.depth ≥ w.maxCallDepth then _ else _ : Guest H Value) w)
  split
  case isTrue => exact Conducts.plain (.throwFault _) w hw
  case isFalse hdepth =>
    refine Conducted.holding (Conducts.inCall (hw.calm (.of_eq rfl (.refl _) (.refl _)))
      (Nat.lt_of_not_le hdepth) ?_) fun _ _ _ h => h
    split
    · exact Conducts.bind (k.checkReceiver hcall m receiver) fun _ => hbody m receiver args
    · exact k.plain (.throwFault _)

/-- Calls are conducted, however deeply they are nested, if native methods are. -/
theorem conducts_invokeWithin
    (hnative : ∀ {n call}, CallsConduct strict strict n call →
      CallsConduct strict strict n (Native.invoke native call)) (fuel : Nat) :
    CallsConduct strict strict fuel (invokeWithin strict native fuel) := by
  induction fuel with
  | zero =>
    intro m receiver args w hw
    have := hw.room
    have := hw.shallow
    omega
  | succ fuel ih => exact conducts_callWith ih (conducts_runBodyWithin ih (hnative ih))

/-! ## New throwables -/

theorem of_holding_ok {ε : Type} {a : Action H ε α} {objects : List ObjectRef} {w w' : World H}
    {x : α} (h : Action.holding objects a w = .ok x w') :
    ∃ v, a { w with held := objects ++ w.held } = .ok x v ∧ w' = { v with held := w.held } := by
  unfold Action.holding Action.andFinally at h
  cases hr : a { w with held := objects ++ w.held } <;> rw [hr] at h <;> cases h
  exact ⟨_, rfl, rfl⟩

/-- A new object of a throwable class is throwable. -/
theorem isThrowable_of_constructWith (hcall : CallsConduct strict checked n call) {c : ClassId}
    {m : MethodRef} {args : List Value} {w w' : World H} {o : ObjectRef}
    (hw : w.Prepared strict n) (hc : w.registry.isSubclass c CoreClass.throwable.id = true)
    (h : constructWith call c m args w = .ok o w') : w'.IsThrowable o := by
  have k := guest_rules (H := H) strict checked n
  obtain ⟨v, hv, rfl⟩ := of_holding_ok h
  obtain ⟨_, w₁, hallocate, hv⟩ := Action.of_bind_ok hv
  obtain ⟨_, w₂, hconstruct, hv⟩ := Action.of_bind_ok hv
  cases hv
  have hw₀ := hw.calm (.of_eq rfl (.refl _) (.refl _) :
    w.Calm { w with held := args.filterMap Value.object? ++ w.held })
  have hcalm₁ := k.allocate hcall c _ hw₀
  rw [hallocate] at hcalm₁
  have hcalm₂ := Conducts.holding [o] (k.discardCall hcall m (some o) args) w₁ (hw₀.calm hcalm₁)
  rw [hconstruct] at hcalm₂
  refine World.Continues.isThrowable hcalm₂.toContinues (hw₀.calm hcalm₁).throwables ?_
  rw [IsThrowable, isInstance, classOf_of_allocate hallocate,
    hw.throwables.isSubclass_mono hcalm₁.registry (hw.throwables.lt_size hc)]
  exact hc

theorem isThrowable_of_newThrowable (hcall : CallsConduct strict checked n call) {c : ClassId}
    {message : Option String} {w w' : World H} {o : ObjectRef} (hw : w.Prepared strict n)
    (h : newThrowable call c message w = .ok o w') : w'.IsThrowable o := by
  have hmade : ∀ {d v args}, w.Calm v → construct call c d args v = .ok o w' →
      w.registry.isSubclass c CoreClass.throwable.id = true → w'.IsThrowable o := by
    intro d v args hv h hc
    obtain ⟨m, v', hresolve, h⟩ := Action.of_bind_ok h
    have hfound : Conducts strict checked n
        (resolveMethod c Method.constructorName d false : Guest H MethodRef) :=
      .plain (.resolveMethod _ _ _ _)
    have hv' := hfound v (hw.calm hv)
    rw [hresolve] at hv'
    have hcalm : w.Calm v' := hv.trans hv'
    refine isThrowable_of_constructWith hcall (hw.calm hcalm) ?_ h
    rw [hw.throwables.isSubclass_mono hcalm.registry (hw.throwables.lt_size hc), hc]
  obtain ⟨_, _, hworld, h⟩ := Action.of_bind_ok h
  cases hworld
  split at h
  case isTrue hc =>
    cases message with
    | none => exact hmade (.refl w) h hc
    | some text => exact hmade (w.sameSide_newObject _ _).calm h hc
  case isFalse => cases h

end Guest

end GuestBoundary
