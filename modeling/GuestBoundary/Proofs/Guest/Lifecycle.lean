import GuestBoundary.Proofs.Effects.Evaluation
import GuestBoundary.Proofs.Guest.Initialization
import Mathlib.Logic.Relation

/-!
# The life of a class

A class is claimed by the thread that initializes it, and its initialization ends once, well or
badly.  `World.Onward` says what a run without native code does to classes between two of its
states: every class has moved on, a class whose initialization was going on is left to the call
that began it, and an initializer was started only where the class was still untouched.  Guest code
keeps this, whatever calls it makes (`Guest.orderly_neutral`), although the call that initializes a
class does to this one class what other calls must not; `World.Underway` follows it through that.
-/

namespace GuestBoundary

variable {H : Type}

/-! ## How far initialization comes -/

namespace InitState

variable {t : ThreadId} {i j : InitState}

/-- One step of the initialization of a class on a thread. -/
inductive Move (t : ThreadId) : InitState → InitState → Prop where
  | claim : Move t .untouched (.running t)
  | succeed : Move t (.running t) .done
  | fail : Move t (.running t) .failed

/-- Some steps of the initialization of a class. -/
abbrev Moves (t : ThreadId) : InitState → InitState → Prop := Relation.ReflTransGen (Move t)

theorem Moves.eq_untouched (h : Moves t i .untouched) : i = .untouched := by
  cases h with
  | refl => rfl
  | tail _ last => cases last

/-- An initialization that has ended stays as it is. -/
theorem Moves.eq_of_ended (h : Moves t i j) (hi : i = .done ∨ i = .failed) : j = i := by
  rcases Relation.ReflTransGen.cases_head h with rfl | ⟨k, first, _⟩
  · rfl
  · rcases hi with rfl | rfl <;> cases first

end InitState

open InitState (Move Moves)

namespace World

variable {w w' w'' v : World H} {c d : ClassId} {own : Option ClassId}

theorem lt_size_of_init_ne (h : (w.classState c).init ≠ .done) : c.index < w.states.size := by
  by_cases hlt : c.index < w.states.size
  · exact hlt
  · refine absurd ?_ h
    rw [classState, Array.getElem?_eq_none (by omega)]
    rfl

theorem init_setInit_self {i : InitState} (h : c.index < w.states.size) :
    ((w.setInit c i).classState c).init = i := by
  show ((w.setClassState c _).classState c).init = i
  rw [classState_setClassState, if_pos ⟨rfl, h⟩]

theorem init_setInit_of_ne {i : InitState} (h : d ≠ c) :
    ((w.setInit c i).classState d).init = (w.classState d).init :=
  congrArg ClassState.init (classState_setInit_of_ne h)

/-- No native code can run, and superclasses come before their subclasses. -/
structure Plain (w : World H) : Prop where
  root : 0 < w.registry.size
  ranked : w.registry.Ranked
  sized : w.states.size = w.registry.size
  unbridged : w.bridge = none

theorem Plain.lt_size (hw : w.Plain) (h : (w.classState c).init ≠ .done) :
    c.index < w.registry.size := hw.sized ▸ lt_size_of_init_ne h

/-- What becomes of classes on the way from one state to another.  A call that is initializing a
class itself may end that and start the initializer. -/
structure Onward (own : Option ClassId) (w w' : World H) : Prop where
  plain : w'.Plain
  registry : w.registry.Extends w'.registry
  thread : w'.thread.id = w.thread.id
  moves : ∀ c, Moves w.thread.id (w.classState c).init (w'.classState c).init
  running : ∀ c t, own ≠ some c → (w.classState c).init = .running t →
    (w'.classState c).init = .running t
  /-- An initializer is started once, and then the class is not untouched any more. -/
  started : ∀ c, own ≠ some c → w'.started.count c = w.started.count c ∨
    (w.classState c).init = .untouched ∧ (w'.classState c).init ≠ .untouched ∧
      w'.started.count c = w.started.count c + 1

theorem Onward.refl (own : Option ClassId) (h : w.Plain) : Onward own w w :=
  ⟨h, .refl _, rfl, fun _ => .refl, fun _ _ _ h => h, fun _ _ => .inl rfl⟩

theorem Onward.trans (h : Onward own w w') (h' : Onward own w' w'') : Onward own w w'' where
  plain := h'.plain
  registry := h.registry.trans h'.registry
  thread := h'.thread.trans h.thread
  moves c := (h.moves c).trans (h.thread ▸ h'.moves c)
  running c t hc hrunning := h'.running c t hc (h.running c t hc hrunning)
  started c hc := by
    have hback : (w'.classState c).init = .untouched → (w.classState c).init = .untouched :=
      fun heq => (heq ▸ h.moves c).eq_untouched
    have hback' : (w''.classState c).init = .untouched → (w'.classState c).init = .untouched :=
      fun heq => (heq ▸ h'.moves c).eq_untouched
    rcases h.started c hc with hs | ⟨hfrom, hto, hs⟩ <;>
      rcases h'.started c hc with hs' | ⟨hfrom', hto', hs'⟩
    · exact .inl (hs'.trans hs)
    · exact .inr ⟨hback hfrom', hto', by rw [hs', hs]⟩
    · exact .inr ⟨hfrom, mt hback' hto, by rw [hs', hs]⟩
    · exact absurd hfrom' hto

theorem Onward.weaken (h : Onward none w w') (own : Option ClassId) : Onward own w w' :=
  ⟨h.plain, h.registry, h.thread, h.moves, fun c t _ => h.running c t nofun,
    fun c _ => h.started c nofun⟩

/-- Where classes stand as they did, nothing has become of them. -/
theorem SameClasses.onward (h : SameClasses w w') (hthread : w'.thread.id = w.thread.id)
    (hw : w.Plain) : Onward own w w' where
  plain :=
    { root := Nat.lt_of_lt_of_le hw.root h.registry.size_le
      ranked := h.registry.ranked hw.root hw.ranked
      sized := h.sized hw.sized
      unbridged := h.unbridged hw.unbridged }
  registry := h.registry
  thread := hthread
  moves c := by rw [h.init c]
  running c t _ hrunning := (h.init c).trans hrunning
  started c _ := .inl (by rw [h.started])

/-! ### The class that is being initialized -/

/-- A call is initializing a class that was untouched, and has started its initializer `n` times so
far. -/
structure Underway (c : ClassId) (n : Nat) (w v : World H) : Prop where
  onward : Onward (some c) w v
  untouched : (w.classState c).init = .untouched
  running : (v.classState c).init = .running w.thread.id
  count : v.started.count c = w.started.count c + n

theorem Plain.setInit (hw : w.Plain) (c : ClassId) (i : InitState) : (w.setInit c i).Plain :=
  ⟨hw.root, hw.ranked, (Array.size_setIfInBounds ..).trans hw.sized, hw.unbridged⟩

/-- The class that a call initializes is its own to move on. -/
theorem Plain.onward_setInit {i : InitState} (hw : w.Plain)
    (hmove : Move w.thread.id (w.classState c).init i) :
    Onward (some c) w (w.setInit c i) where
  plain := hw.setInit c i
  registry := .refl _
  thread := rfl
  moves d := by
    by_cases hd : d = c
    · have hdone : (w.classState c).init ≠ .done := fun h => by
        rw [h] at hmove
        cases hmove
      subst hd
      rw [init_setInit_self (lt_size_of_init_ne hdone)]
      exact .single hmove
    · rw [init_setInit_of_ne hd]
  running d t hd hrunning := by
    rw [init_setInit_of_ne fun h => hd (congrArg some h.symm)]
    exact hrunning
  started _ _ := .inl rfl

theorem Underway.claim (hw : w.Plain) (h : (w.classState c).init = .untouched) :
    Underway c 0 w (w.setInit c (.running w.thread.id)) where
  onward := hw.onward_setInit (h ▸ .claim)
  untouched := h
  running := init_setInit_self (lt_size_of_init_ne (by rw [h]; nofun))
  count := rfl

/-- What runs meanwhile leaves the class alone. -/
theorem Underway.step {n : Nat} (h : Underway c n w v) (hstep : Onward none v w') :
    Underway c n w w' where
  onward := h.onward.trans (hstep.weaken _)
  untouched := h.untouched
  running := hstep.running c _ nofun h.running
  count := by
    rcases hstep.started c nofun with hs | ⟨hfrom, -, -⟩
    · rw [hs, h.count]
    · rw [h.running] at hfrom
      cases hfrom

theorem Underway.start (h : Underway c 0 w v) : Underway c 1 w (v.noteStart c) where
  onward := by
    have hv := h.onward.plain
    refine h.onward.trans ⟨⟨hv.root, hv.ranked, hv.sized, hv.unbridged⟩, .refl _, rfl,
      fun _ => .refl, fun _ _ _ h => h, fun d hd => ?_⟩
    exact .inl (List.count_cons_of_ne fun heq => hd (congrArg some heq))
  untouched := h.untouched
  running := h.running
  count := by
    show (c :: v.started).count c = _
    rw [List.count_cons_self, h.count]

/-- From an untouched class on, starting its initializer once is no more than any call may do. -/
theorem Onward.of_own {n : Nat} (h : Onward (some c) w v)
    (huntouched : (w.classState c).init = .untouched) (hinit : (v.classState c).init ≠ .untouched)
    (hcount : v.started.count c = w.started.count c + n) (hn : n ≤ 1) : Onward none w v where
  plain := h.plain
  registry := h.registry
  thread := h.thread
  moves := h.moves
  running d t _ hrunning := by
    refine h.running d t (fun heq => ?_) hrunning
    rw [← Option.some.inj heq, huntouched] at hrunning
    cases hrunning
  started d _ := by
    by_cases hd : d = c
    · subst hd
      rcases Nat.le_one_iff_eq_zero_or_eq_one.1 hn with rfl | rfl
      · exact .inl hcount
      · exact .inr ⟨huntouched, hinit, hcount⟩
    · exact h.started d fun heq => hd (Option.some.inj heq).symm

theorem Underway.onward_none {n : Nat} (h : Underway c n w v) (hn : n ≤ 1) : Onward none w v := by
  refine h.onward.of_own h.untouched ?_ h.count hn
  rw [h.running]
  nofun

/-- In the end the call settles its class. -/
theorem Underway.settle {n : Nat} {i : InitState} (h : Underway c n w v) (hn : n ≤ 1)
    (hi : i = .done ∨ i = .failed) : Onward none w (v.setInit c i) := by
  have hthread : v.thread.id = w.thread.id := h.onward.thread
  have hmove : Move v.thread.id (v.classState c).init i := by
    rw [h.running, hthread]
    rcases hi with rfl | rfl
    · exact .succeed
    · exact .fail
  have hinit : ((v.setInit c i).classState c).init = i :=
    init_setInit_self (lt_size_of_init_ne (by rw [h.running]; nofun))
  refine (h.onward.trans (h.onward.plain.onward_setInit hmove)).of_own h.untouched ?_ h.count hn
  rw [hinit]
  rcases hi with rfl | rfl <;> nofun

/-- Classes move on as they should in a run without native code. -/
def Orderly (w w' : World H) : Prop := w.Plain → Onward none w w'

end World

namespace Guest

open World

variable {call : Invoker H} {w v : World H} {c : ClassId} {depth : Nat}

theorem orderly_composable : Composable (Orderly (H := H)) where
  refl _ hw := .refl none hw
  trans h h' hw := (h hw).trans (h' (h hw).plain)

theorem keeps_orderly {ε α : Type} {a : Action H ε α}
    (h : ∀ w, w.Plain → (a w).Leaves (Onward none w)) : Keeps Orderly a := by
  intro w
  by_cases hw : w.Plain
  · exact (h w hw).mono fun _ ho _ => ho
  · cases a w with
    | ok x w' => exact fun hw' => absurd hw' hw
    | error e w' => exact fun hw' => absurd hw' hw
    | panic m w' => exact fun hw' => absurd hw' hw
    | halt r w' => trivial

theorem leaves_of_keeps_orderly {ε α : Type} {a : Action H ε α} (h : Keeps Orderly a)
    (hw : w.Plain) : (a w).Leaves (Onward none w) := (h w).mono fun _ ho => ho hw

section Initialization

variable (hcall : CallsKeep Orderly call)
include hcall

theorem leaves_runInitializer (h : Underway c 0 w v) (r : Registry) :
    (runInitializer call r c v).Leaves fun v' => ∃ n ≤ 1, Underway c n w v' := by
  unfold runInitializer
  cases r.initializer? c with
  | none => exact ⟨0, Nat.zero_le 1, h⟩
  | some m =>
    have hkeeps : Keeps Orderly (discard (call m none [])) :=
      .discard orderly_composable (hcall m none [])
    have hplain := h.start.onward.plain
    exact (hkeeps (v.noteStart c)).mono fun v' hv => ⟨1, Nat.le_refl 1, h.start.step (hv hplain)⟩

theorem leaves_runInitializers
    (hsuper : ∀ s v, v.Plain → (initClassWithin call depth s v).Leaves (Onward none v))
    (h : Underway c 0 w v) (r : Registry) :
    (runInitializers call r depth c v).Leaves fun v' => ∃ n ≤ 1, Underway c n w v' := by
  have hown := fun v' (h' : Underway c 0 w v') => leaves_runInitializer hcall h' r
  unfold runInitializers
  cases (r.get c).superclass with
  | none => exact hown v h
  | some s =>
    have hs : (initClassWithin call depth s v).Leaves (Underway c 0 w) :=
      (hsuper s v h.onward.plain).mono fun v' hv => h.step hv
    exact hs.bind (fun v' h' => ⟨0, Nat.zero_le 1, h'⟩) fun _ v' _ h' => hown v' h'

/-- Initialization follows the class that it claims to its end. -/
theorem leaves_initClassWithin (hw : w.Plain) :
    (initClassWithin call depth c w).Leaves (Onward none w) := by
  induction depth generalizing c w with
  | zero => exact .refl none hw
  | succ depth ih =>
    rw [initClassWithin_succ]
    cases hinit : (w.classState c).init with
    | done => exact .refl none hw
    | running t =>
      dsimp only
      split
      · exact .refl none hw
      · trivial
    | failed =>
      have same := w.sameSide_materialize
        ⟨.noClassDefFound, "could not initialize class " ++ w.registry.dottedName c⟩
      exact same.classes.onward (congrArg Thread.id same.thread) hw
    | untouched =>
      have hrun := leaves_runInitializers hcall (fun s v hv => ih hv) (.claim hw hinit) w.registry
      refine Outcome.Leaves.bind (Keeps.result_at hrun) ?_ ?_
      · rintro v ⟨n, hn, h⟩
        exact h.onward_none hn
      · rintro result v - ⟨n, hn, h⟩
        cases result with
        | ok _ => exact h.settle hn (.inl rfl)
        | error thrown => exact h.settle hn (.inr rfl)

end Initialization

/-- Whatever guest code does, classes move on as they should. -/
theorem orderly_neutral : CallNeutral (Orderly (H := H)) where
  toComposable := orderly_composable
  sameSide h hw := h.classes.onward (congrArg Thread.id h.thread) hw
  inCall {w w'} h hw := by
    have hdepth : ∀ (v : World H) depth, SameClasses v (v.setDepth depth) :=
      fun _ _ => .of_eq rfl
    have hin : Onward none w (w.setDepth (w.thread.depth + 1)) := (hdepth w _).onward rfl hw
    have hbody := h hin.plain
    exact (hin.trans hbody).trans ((hdepth w' _).onward rfl hbody.plain)
  initClass hcall _ := keeps_orderly fun _ hw => leaves_initClassWithin hcall hw

/-- Without a bridge, a native method is one that cannot be linked. -/
theorem nativeInvoke_of_unbridged (native : NativeCode H) (m : MethodRef)
    (receiver : Option ObjectRef) (args : List Value) (h : w.bridge = none) :
    ∃ f, ∀ call, Native.invoke native call m receiver args w = throwFault f w := by
  refine ⟨⟨.unsatisfiedLink, if w.linked then w.registry.describeMethod m ++
    ": native bridge is gone" else w.registry.describeMethod m⟩, fun call => ?_⟩
  unfold Native.invoke
  rw [Action.bind_ok (rfl : Action.world w = .ok w w)]
  dsimp only
  rw [h]

theorem orderly_nativeInvoke (native : NativeCode H) (call : Invoker H) :
    CallsKeep Orderly (Native.invoke native call) := by
  intro m receiver args
  refine keeps_orderly fun w hw => ?_
  obtain ⟨f, hf⟩ := nativeInvoke_of_unbridged native m receiver args hw.unbridged
  rw [hf]
  exact leaves_of_keeps_orderly (orderly_neutral.throwFault f) hw

/-- So it is with every call of a method, however deeply calls are nested in it. -/
theorem orderly_invoke (native : NativeCode H) (fuel : Nat) :
    CallsKeep Orderly (invoke native fuel) := by
  induction fuel with
  | zero => exact fun _ _ _ => .halt _
  | succ fuel ih =>
    intro m receiver args
    exact orderly_neutral.invokeWith receiver args ih (orderly_nativeInvoke native _) m

end Guest

end GuestBoundary
