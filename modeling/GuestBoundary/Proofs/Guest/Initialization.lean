import GuestBoundary.Proofs.Classes.Table
import GuestBoundary.Proofs.Effects.Guest

/-!
# Whether a class can be initialized

Initialization goes up the chain of a class, as far as classes are untouched.  If the one where it
stops was initialized or is being initialized by the same thread, all static initializers on the way
run (`initClass_ok`); if it failed or another thread is at it, none of them does
(`initClass_blocked`).
-/

namespace GuestBoundary

variable {H : Type}

namespace World

variable {w : World H} {c d : ClassId} {init : InitState} {cs : List ClassId}

/-- Whether the first of some classes that is not untouched lets its subclasses be initialized. -/
def clears (w : World H) : List ClassId → Bool
  | [] => true
  | c :: cs =>
    match (w.classState c).init with
    | .untouched => clears w cs
    | .running thread => thread == w.thread.id
    | .done => true
    | .failed => false

/-- Whether nothing stands in the way of the initialization of a class, except its initializers. -/
def canInitialize (w : World H) (c : ClassId) : Bool := w.clears (w.registry.chain c)

/-- The first of some classes that is not untouched, if another thread initializes it. -/
def awaited? (w : World H) : List ClassId → Option ClassId
  | [] => none
  | c :: cs =>
    match (w.classState c).init with
    | .untouched => awaited? w cs
    | .running thread => if thread = w.thread.id then none else some c
    | .done | .failed => none

/-- The class for whose initialization by another thread the initialization of a class waits. -/
def awaitedFor? (w : World H) (c : ClassId) : Option ClassId := w.awaited? (w.registry.chain c)

theorem classState_setInit_of_ne (h : d ≠ c) :
    (w.setInit c init).classState d = w.classState d := by
  have hindex : c.index ≠ d.index := by
    obtain ⟨i⟩ := c
    obtain ⟨j⟩ := d
    rintro rfl
    exact h rfl
  show (w.states.setIfInBounds c.index _)[d.index]?.getD .ready = _
  rw [Array.getElem?_setIfInBounds_ne hindex]
  rfl

theorem clears_setInit (h : c ∉ cs) : (w.setInit c init).clears cs = w.clears cs := by
  induction cs with
  | nil => rfl
  | cons d cs ih =>
    rw [List.mem_cons, not_or] at h
    rw [clears, clears, classState_setInit_of_ne (Ne.symm h.1), ih h.2]
    rfl

theorem clears_congr {w' : World H} (hstates : w'.states = w.states)
    (hthread : w'.thread = w.thread) : w'.clears cs = w.clears cs := by
  induction cs with
  | nil => rfl
  | cons c cs ih =>
    rw [clears, clears, ih, classState, classState, hstates, hthread]

theorem canInitialize_congr {w' : World H} (hregistry : w'.registry = w.registry)
    (hstates : w'.states = w.states) (hthread : w'.thread = w.thread) :
    w'.canInitialize c = w.canInitialize c := by
  rw [canInitialize, canInitialize, hregistry, clears_congr hstates hthread]

end World

namespace Guest

variable {call : Invoker H} {w : World H} {c : ClassId} {depth : Nat}

/-- The static initializer of a class, if it has one. -/
def runInitializer (call : Invoker H) (r : Registry) (c : ClassId) : Guest H Unit :=
  match r.initializer? c with
  | some m => do
    Action.update fun w => w.noteStart c
    discard (call m none [])
  | none => pure ()

/-- The initializers of the superclasses of a class, and then its own one. -/
def runInitializers (call : Invoker H) (r : Registry) (depth : Nat) (c : ClassId) :
    Guest H Unit := do
  match (r.get c).superclass with
  | some s => initClassWithin call depth s
  | none => pure ()
  runInitializer call r c

theorem runInitializers_of_superclass {r : Registry} {s : ClassId}
    (h : (r.get c).superclass = some s) : runInitializers call r depth c =
      initClassWithin call depth s >>= fun _ => runInitializer call r c := by
  rw [runInitializers, h]

/-- The superclass of a class is initialized before the class. -/
def initSuper (call : Invoker H) (r : Registry) (depth : Nat) (c : ClassId) : Guest H Unit :=
  match (r.get c).superclass with
  | some s => initClassWithin call depth s
  | none => pure ()

theorem runInitializers_eq (call : Invoker H) (r : Registry) (depth : Nat) (c : ClassId) :
    runInitializers call r depth c = initSuper call r depth c >>= fun _ => runInitializer call r c := by
  unfold runInitializers initSuper
  cases (r.get c).superclass <;> rfl

theorem runInitializer_ok {r : Registry} (hcall : ∀ m w, ∃ v w', call m none [] w = .ok v w')
    (w : World H) : ∃ w', runInitializer call r c w = .ok () w' := by
  unfold runInitializer
  cases r.initializer? c with
  | none => exact ⟨w, rfl⟩
  | some m =>
    obtain ⟨v, w', hm⟩ := hcall m (w.noteStart c)
    exact ⟨w', Action.bind_ok hm⟩

/-- Notes how the initialization of a class ended. -/
def noteInit (c : ClassId) : Except ObjectRef Unit → Guest H Unit
  | .ok () => Action.update fun w => w.setInit c .done
  | .error thrown => do
    Action.update fun w => w.setInit c .failed
    Action.fail thrown

/-- What is noted about a class, by how its initialization ended. -/
theorem result_bind_noteInit (a : Guest H Unit) (c : ClassId) (w : World H) :
    (a.result >>= noteInit c) w =
      match a w with
      | .ok () v => .ok () (v.setInit c .done)
      | .error thrown v => .error thrown (v.setInit c .failed)
      | .panic m v => .panic m v
      | .halt r v => .halt r v := by
  cases ha : a w with
  | ok _ v => exact Action.bind_ok (Action.result_ok ha)
  | error thrown v => exact Action.bind_ok (Action.result_error ha)
  | panic m v => exact Action.bind_panic (Action.result_panic ha)
  | halt r v => exact Action.bind_halt (Action.result_halt ha)

theorem initClassWithin_succ (call : Invoker H) (depth : Nat) (c : ClassId) (w : World H) :
    initClassWithin call (depth + 1) c w =
      match (w.classState c).init with
      | .done => .ok () w
      | .running thread =>
        if thread = w.thread.id then .ok () w else .halt (.deadlock (.initialization c)) w
      | .failed => throwFault ⟨.noClassDefFound,
          "could not initialize class " ++ w.registry.dottedName c⟩ w
      | .untouched => ((runInitializers call w.registry depth c).result >>= noteInit c)
          (w.setInit c (.running w.thread.id)) := by
  rw [initClassWithin]
  show Action.andThen _ _ w = _
  rw [Action.andThen]
  simp only [Action.world]
  cases (w.classState c).init with
  | running thread =>
    dsimp only
    split <;> rfl
  | _ => rfl

/-- The superclasses of a class that is being initialized stand as they did. -/
theorem clears_superclass {s : ClassId} (h : w.registry.Ranked)
    (hs : (w.registry.get c).superclass = some s) (init : InitState) :
    (w.setInit c init).clears (w.registry.chainWithin depth s) =
      w.clears (w.registry.chainWithin depth s) := by
  refine World.clears_setInit fun hc => ?_
  have hlt := h c s hs
  have := h.le_of_mem_chainWithin hc
  omega

theorem initClassWithin_ok (hcall : ∀ m w, ∃ v w', call m none [] w = .ok v w')
    (hranked : w.registry.Ranked) (h : w.clears (w.registry.chainWithin depth c) = true) :
    ∃ w', initClassWithin call depth c w = .ok () w' := by
  induction depth generalizing c w with
  | zero => exact ⟨w, rfl⟩
  | succ depth ih =>
    rw [Registry.chainWithin, World.clears] at h
    rw [initClassWithin_succ]
    cases hi : (w.classState c).init with
    | done => exact ⟨w, rfl⟩
    | failed =>
      rw [hi] at h
      cases h
    | running thread =>
      rw [hi] at h
      exact ⟨w, if_pos (eq_of_beq h)⟩
    | untouched =>
      rw [hi] at h
      obtain ⟨w₁, hrun⟩ : ∃ w₁, runInitializers call w.registry depth c
          (w.setInit c (.running w.thread.id)) = .ok () w₁ := by
        cases hs : (w.registry.get c).superclass with
        | none =>
          rw [runInitializers, hs]
          exact runInitializer_ok hcall _
        | some s =>
          rw [hs] at h
          obtain ⟨w₁, hsuper⟩ := ih (w := w.setInit c (.running w.thread.id)) hranked
            ((clears_superclass hranked hs _).trans h)
          obtain ⟨w₂, hown⟩ := runInitializer_ok (c := c) (r := w.registry) hcall w₁
          rw [runInitializers_of_superclass hs, Action.bind_ok hsuper]
          exact ⟨w₂, hown⟩
      exact ⟨w₁.setInit c .done, Action.bind_ok (Action.result_ok hrun)⟩

theorem initClassWithin_blocked (hranked : w.registry.Ranked)
    (h : w.clears (w.registry.chainWithin depth c) = false) :
    (∃ o w', w'.thread = w.thread ∧ ∀ call, initClassWithin call depth c w = .error o w') ∨
      ∃ d w', ∀ call, initClassWithin call depth c w =
        .halt (.deadlock (.initialization d)) w' := by
  induction depth generalizing c w with
  | zero => cases h
  | succ depth ih =>
    rw [Registry.chainWithin, World.clears] at h
    simp only [initClassWithin_succ]
    cases hi : (w.classState c).init with
    | done =>
      rw [hi] at h
      cases h
    | failed => exact .inl ⟨_, _, (w.sameSide_materialize _).thread, fun _ => rfl⟩
    | running thread =>
      rw [hi] at h
      exact .inr ⟨c, w, fun _ => if_neg (ne_of_beq_false h)⟩
    | untouched =>
      rw [hi] at h
      cases hs : (w.registry.get c).superclass with
      | none =>
        rw [hs] at h
        cases h
      | some s =>
        rw [hs] at h
        dsimp only
        simp only [runInitializers_of_superclass hs]
        rcases ih (w := w.setInit c (.running w.thread.id)) hranked
            ((clears_superclass hranked hs _).trans h) with
          ⟨o, w₁, hthread, hfails⟩ | ⟨d, w₁, hwaits⟩
        · exact .inl ⟨o, w₁.setInit c .failed, hthread, fun call =>
            Action.bind_ok (Action.result_error (Action.bind_error (hfails call)))⟩
        · exact .inr ⟨d, w₁, fun call =>
            Action.bind_halt (Action.result_halt (Action.bind_halt (hwaits call)))⟩

/-- With initializers that answer, a class can be initialized unless something is in the way. -/
theorem initClass_ok (hcall : ∀ m w, ∃ v w', call m none [] w = .ok v w')
    (hranked : w.registry.Ranked) (h : w.canInitialize c = true) :
    ∃ w', initClass call c w = .ok () w' := initClassWithin_ok hcall hranked h

/-- If something is in the way, no initializer runs: the class turns out to be unusable, or the
thread waits for another one. -/
theorem initClass_blocked (hranked : w.registry.Ranked) (h : w.canInitialize c = false) :
    (∃ o w', w'.thread = w.thread ∧ ∀ call, initClass call c w = .error o w') ∨
      ∃ d w', ∀ call, initClass call c w = .halt (.deadlock (.initialization d)) w' :=
  initClassWithin_blocked hranked h

/-! ## Making an instance -/

theorem allocate_eq (call : Invoker H) (c : ClassId) (w : World H) : allocate call c w =
    if (w.registry.get c).isInstantiable then
      (initClass call c >>= fun _ => Action.step fun w => w.newInstance c) w
    else throwFault ⟨.instantiation, w.registry.dottedName c⟩ w := by
  rw [allocate]
  show Action.andThen Action.world _ w = _
  rw [Action.andThen, Action.world]
  dsimp only
  split <;> rfl

theorem allocate_ok (hcall : ∀ m w, ∃ v w', call m none [] w = .ok v w')
    (hranked : w.registry.Ranked) (hconcrete : (w.registry.get c).isInstantiable = true)
    (hinit : w.canInitialize c = true) : ∃ o w', allocate call c w = .ok o w' := by
  obtain ⟨w₁, hinit⟩ := initClass_ok hcall hranked hinit
  refine ⟨(w₁.newInstance c).1, (w₁.newInstance c).2, ?_⟩
  rw [allocate_eq, if_pos hconcrete, Action.bind_ok hinit]
  rfl

theorem allocate_blocked (hranked : w.registry.Ranked)
    (h : ¬ ((w.registry.get c).isInstantiable = true ∧ w.canInitialize c = true)) :
    (∃ o w', w'.thread = w.thread ∧ ∀ call, allocate call c w = .error o w') ∨
      ∃ d w', ∀ call, allocate call c w = .halt (.deadlock (.initialization d)) w' := by
  simp only [allocate_eq]
  by_cases hconcrete : (w.registry.get c).isInstantiable = true
  · simp only [if_pos hconcrete]
    have hinit : w.canInitialize c = false := Bool.eq_false_iff.2 fun hinit => h ⟨hconcrete, hinit⟩
    rcases initClass_blocked hranked hinit with ⟨o, w', hthread, hfails⟩ | ⟨d, w', hwaits⟩
    · exact .inl ⟨o, w', hthread, fun call => Action.bind_error (hfails call)⟩
    · exact .inr ⟨d, w', fun call => Action.bind_halt (hwaits call)⟩
  · simp only [if_neg hconcrete]
    exact .inl ⟨_, _, (w.sameSide_materialize _).thread, fun _ => rfl⟩

theorem classOf_newInstance (w : World H) (c : ClassId) :
    (w.newInstance c).2.classOf (w.newInstance c).1 = c := by
  show Object.classId ((w.heap.objects.push _)[w.heap.objects.size]?.getD default) = c
  rw [Array.getElem?_push, if_pos rfl]
  rfl

theorem classOf_of_allocate {o : ObjectRef} {w' : World H} (h : allocate call c w = .ok o w') :
    w'.classOf o = c := by
  rw [allocate_eq] at h
  split at h
  · cases hinit : initClass call c w with
    | ok u w₁ =>
      rw [Action.bind_ok hinit] at h
      cases h
      exact classOf_newInstance w₁ c
    | error e w₁ =>
      rw [Action.bind_error hinit] at h
      cases h
    | panic message w₁ =>
      rw [Action.bind_panic hinit] at h
      cases h
    | halt reason w₁ =>
      rw [Action.bind_halt hinit] at h
      cases h
  · cases h

end Guest

end GuestBoundary
