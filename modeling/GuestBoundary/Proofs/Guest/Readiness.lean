import GuestBoundary.Proofs.Guest.Lifecycle

/-!
# What waits for initialization

A class is ready once it is initialized, or while the running thread initializes it.  An initializer
is started when its own class is in progress and the superclass is ready, the body of a static
method begins and an instance is made when the class is ready.

Each is said with a guard, `Action.provided`, which does something else in states where the
condition does not hold.  A function that has the guard in front of a part of it does the same as
without, whatever else the guard does: so it gets to that part only where the condition holds.
-/

namespace GuestBoundary

variable {H ε α : Type}

/-- The action, where the condition holds; in other states something else. -/
def Action.provided (p : World H → Prop) [DecidablePred p] (a other : Action H ε α) :
    Action H ε α := fun w => if p w then a w else other w

theorem Action.provided_pos {p : World H → Prop} [DecidablePred p] {a other : Action H ε α}
    {w : World H} (h : p w) : Action.provided p a other w = a w := if_pos h

namespace World

variable {w w' v : World H} {c : ClassId}

/-- The class is initialized, or the running thread is initializing it. -/
def Ready (w : World H) (c : ClassId) : Prop :=
  (w.classState c).init = .done ∨ (w.classState c).init = .running w.thread.id

instance (w : World H) (c : ClassId) : Decidable (w.Ready c) :=
  inferInstanceAs (Decidable (_ ∨ _))

/-- The running thread is initializing the class, and the superclass is ready. -/
def MayStart (w : World H) (c : ClassId) : Prop :=
  (w.classState c).init = .running w.thread.id ∧
    ∀ s ∈ (w.registry.get c).superclass, w.Ready s

instance (w : World H) (c : ClassId) : Decidable (w.MayStart c) :=
  inferInstanceAs (Decidable (_ ∧ _))

/-- The class of the method is ready, if the method is static. -/
def MayEnter (w : World H) (m : MethodRef) : Prop :=
  (w.registry.method m).isStatic = true → w.Ready m.owner

instance (w : World H) (m : MethodRef) : Decidable (w.MayEnter m) :=
  inferInstanceAs (Decidable (_ → _))

theorem init_setInit_done (v : World H) (c : ClassId) :
    ((v.setInit c .done).classState c).init = .done := by
  by_cases h : c.index < v.states.size
  · exact init_setInit_self h
  · refine Classical.byContradiction fun hne => h ?_
    exact Nat.lt_of_lt_of_eq (lt_size_of_init_ne hne) (Array.size_setIfInBounds ..)

end World

namespace Guest

open World

variable {call other : Invoker H} {w w' v : World H} {c : ClassId} {depth depth' : Nat}

/-! ## Classes that were initialized -/

theorem ready_of_initClassWithin (h : initClassWithin call (depth + 1) c w = .ok () w') :
    w'.Ready c := by
  rw [initClassWithin_succ] at h
  cases hinit : (w.classState c).init with
  | done =>
    rw [hinit] at h
    cases h
    exact .inl hinit
  | running t =>
    rw [hinit] at h
    dsimp only at h
    split at h
    case isTrue ht =>
      cases h
      exact .inr (ht ▸ hinit)
    case isFalse => cases h
  | failed =>
    rw [hinit] at h
    cases h
  | untouched =>
    rw [hinit] at h
    obtain ⟨result, v, -, hnote⟩ := Action.of_bind_ok h
    cases result with
    | ok _ =>
      cases hnote
      exact .inl (v.init_setInit_done c)
    | error thrown => cases hnote

/-- A class whose initialization went well, or was going on already, is ready. -/
theorem ready_of_initClass (h : initClass call c w = .ok () w') : w'.Ready c :=
  ready_of_initClassWithin h

/-- Nothing is left to do for a class that is ready. -/
theorem initClass_of_ready (h : w.Ready c) : initClass call c w = .ok () w := by
  rw [initClass, initClassWithin_succ]
  rcases h with h | h <;> rw [h]
  exact if_pos rfl

/-! ## Initializers -/

/-- Calls methods as `call` does, provided that the class of the method is in progress and its
superclass is ready. -/
def starting (other call : Invoker H) : Invoker H := fun m receiver args =>
  Action.provided (World.MayStart · m.owner) (call m receiver args) (other m receiver args)

theorem runInitializer_starting {r : Registry} (h : v.MayStart c) :
    runInitializer (starting other call) r c v = runInitializer call r c v := by
  unfold runInitializer
  cases hm : r.initializer? c with
  | none => rfl
  | some m =>
    obtain ⟨i, -, rfl⟩ := Option.map_eq_some_iff.1 hm
    have hstart : (v.noteStart c).MayStart c := h
    exact Action.bind_congr (Action.provided_pos hstart)

theorem initClassWithin_starting (hcall : CallsKeep Orderly call) (other : Invoker H)
    (hw : w.Plain) (hdepth : c.index < depth) :
    initClassWithin (starting other call) depth c w = initClassWithin call depth c w := by
  induction depth generalizing c w with
  | zero => rfl
  | succ depth ih =>
    rw [initClassWithin_succ, initClassWithin_succ]
    cases hinit : (w.classState c).init with
    | done => rfl
    | running t => rfl
    | failed => rfl
    | untouched =>
      have hclaim := Underway.claim hw hinit
      have hknown : c.index < w.registry.size := hw.lt_size (by rw [hinit]; nofun)
      have hinitializers :
          runInitializers (starting other call) w.registry depth c
            (w.setInit c (.running w.thread.id)) =
          runInitializers call w.registry depth c (w.setInit c (.running w.thread.id)) := by
        -- what may start is decided when the initialization of the superclass has answered
        cases hsuper : (w.registry.get c).superclass with
        | none =>
          have hmay : (w.setInit c (.running w.thread.id)).MayStart c := by
            refine ⟨hclaim.running, fun s hs => ?_⟩
            rw [show (w.setInit c _).registry = w.registry from rfl, hsuper] at hs
            cases hs
          unfold runInitializers
          rw [hsuper]
          exact runInitializer_starting hmay
        | some s =>
          have hlt := hw.ranked c s hsuper
          obtain ⟨depth, rfl⟩ : ∃ n, depth = n + 1 := ⟨depth - 1, by omega⟩
          rw [runInitializers_of_superclass hsuper, runInitializers_of_superclass hsuper,
            Action.bind_congr (ih hclaim.onward.plain (by omega))]
          refine Action.bind_congr_ok fun _ v hv => runInitializer_starting ?_
          have hleaves : (initClassWithin call (depth + 1) s _).Leaves _ :=
            leaves_initClassWithin hcall hclaim.onward.plain
          rw [hv] at hleaves
          have hafter := hclaim.step hleaves
          refine ⟨?_, fun s' hs' => ?_⟩
          · rw [hafter.running, hafter.onward.thread]
          · rw [hafter.onward.registry.get_eq c hknown, hsuper] at hs'
            cases hs'
            exact ready_of_initClassWithin hv
      exact Action.bind_congr (Action.result_congr hinitializers)

/-- Initialization starts an initializer only when the class is in progress and the superclass is
ready. -/
theorem initClass_starting (hcall : CallsKeep Orderly call) (other : Invoker H) (hw : w.Plain)
    (c : ClassId) : initClass (starting other call) c w = initClass call c w :=
  initClassWithin_starting hcall other hw (Nat.lt_succ_self _)

/-! ## How an initialization ends -/

/-- What initializing a class that was claimed comes to: its superclass is initialized, and then the
initializer runs. -/
def attempt (call : Invoker H) (c : ClassId) : Guest H Unit := do
  let r ← Action.read World.registry
  match (r.get c).superclass with
  | some s => initClass call s
  | none => pure ()
  runInitializer call r c

theorem initClassWithin_eq (h : w.registry.Ranked) (hd : c.index < depth) (hd' : c.index < depth') :
    initClassWithin call depth c w = initClassWithin call depth' c w := by
  induction depth generalizing c w depth' with
  | zero => omega
  | succ depth ih =>
    obtain ⟨depth', rfl⟩ : ∃ n, depth' = n + 1 := ⟨depth' - 1, by omega⟩
    rw [initClassWithin_succ, initClassWithin_succ]
    have hrun : runInitializers call w.registry depth c (w.setInit c (.running w.thread.id)) =
        runInitializers call w.registry depth' c (w.setInit c (.running w.thread.id)) := by
      cases hsuper : (w.registry.get c).superclass with
      | none =>
        unfold runInitializers
        rw [hsuper]
      | some s =>
        have hlt := h c s hsuper
        rw [runInitializers_of_superclass hsuper, runInitializers_of_superclass hsuper]
        exact Action.bind_congr (ih h (by omega) (by omega))
    cases (w.classState c).init with
    | untouched => exact Action.bind_congr (Action.result_congr hrun)
    | _ => rfl

/-- The call that claims a class notes how its attempt ended, and ends like it. -/
theorem initClass_of_untouched (h : w.registry.Ranked)
    (hinit : (w.classState c).init = .untouched) :
    initClass call c w =
      ((attempt call c).result >>= noteInit c) (w.setInit c (.running w.thread.id)) := by
  rw [initClass, initClassWithin_succ, hinit]
  refine Action.bind_congr (Action.result_congr ?_)
  have hattempt : runInitializers call w.registry c.index c (w.setInit c (.running w.thread.id)) =
      attempt call c (w.setInit c (.running w.thread.id)) := by
    show _ = (do
      match (w.registry.get c).superclass with
      | some s => initClass call s
      | none => pure ()
      runInitializer call w.registry c) (w.setInit c (.running w.thread.id))
    cases hsuper : (w.registry.get c).superclass with
    | none =>
      unfold runInitializers
      rw [hsuper]
    | some s =>
      rw [runInitializers_of_superclass hsuper]
      exact Action.bind_congr (initClassWithin_eq h (h c s hsuper) (Nat.lt_succ_self _))
  exact hattempt

/-! ## Bodies and instances -/

theorem mayEnter_of_checkReceiver {m : MethodRef} {receiver : Option ObjectRef}
    (h : checkReceiver call m receiver w = .ok () w') : w'.MayEnter m := by
  rw [checkReceiver, Action.bind_ok (rfl : Action.read _ w = .ok _ w)] at h
  split at h
  case isTrue => exact fun _ => ready_of_initClass h
  case isFalse hinstance =>
    cases receiver with
    | some o =>
      cases h
      exact fun hstatic => absurd hstatic hinstance
    | none => cases h

/-- Runs bodies as `body` does, provided that the class is ready if the method is static. -/
def entering (other body : Invoker H) : Invoker H := fun m receiver args =>
  Action.provided (World.MayEnter · m) (body m receiver args) (other m receiver args)

/-- A call comes to the body of a static method only when the class is ready. -/
theorem callWith_entering (other call body : Invoker H) :
    callWith call (entering other body) = callWith call body := by
  funext m receiver args w
  rw [callWith, callWith]
  show (if _ then _ else _ : Guest H Value) w = (if _ then _ else _ : Guest H Value) w
  split
  · rfl
  · refine Action.holding_congr (Action.andFinally_congr ?_)
    split
    · refine Action.bind_congr_ok fun _ v h => ?_
      exact Action.provided_pos (mayEnter_of_checkReceiver h)
    · rfl

/-- An instance is made only when the class is ready. -/
theorem ready_of_allocate {o : ObjectRef} (h : allocate call c w = .ok o w') :
    ∃ v, initClass call c w = .ok () v ∧ v.Ready c ∧ v.newInstance c = (o, w') := by
  rw [allocate_eq] at h
  split at h
  · obtain ⟨_, v, hinit, hmake⟩ := Action.of_bind_ok h
    refine ⟨v, hinit, ready_of_initClass hinit, ?_⟩
    cases hmake
    rfl
  · cases h

end Guest

end GuestBoundary
