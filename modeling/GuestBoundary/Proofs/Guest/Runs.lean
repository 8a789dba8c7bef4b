import GuestBoundary.Proofs.Guest.Agreement

/-!
# Initialization over whole runs

An embedding program without native code defines classes, initializes and allocates them, calls
methods and evaluates guest code, in any order; what it asks for may throw.  `World.InOrder` holds
when it starts, wherever it makes a call on the way and when it ends.  In such a state no
initializer was started twice, and `Guest.Governed` says how initialization goes from there on.
-/

namespace GuestBoundary

variable {H : Type}

open InitState (Moves)

/-! ## Commands -/

namespace Guest

/-- What an embedding program can ask for. -/
inductive Command where
  | define (spec : ClassSpec)
  | prepare (c : ClassId)
  | allocate (c : ClassId)
  | call (m : MethodRef) (receiver : Option ObjectRef) (args : List Value)
  /-- Anything that guest code can do, such as accesses to static fields. -/
  | evaluate (e : Expr)

/-- Runs a command. -/
def Command.run (call : Invoker H) : Command → Guest H Unit
  | .define spec => Action.update fun w => w.defineOrKeep spec
  | .prepare c => initClass call c
  | .allocate c => discard (Guest.allocate call c)
  | .call m receiver args => discard (call m receiver args)
  | .evaluate e => discard (Guest.evaluate call none [] e)

/-- Runs commands in order, also after one that throws. -/
def perform (call : Invoker H) : List Command → Action H Empty Unit
  | [] => pure ()
  | command :: commands => do
    discard (command.run call).result
    perform call commands

end Guest

namespace World

variable {w w' w'' : World H}

/-- The throwable of a fault is of the class that the kind of the fault names. -/
theorem className_materialize {f : GuestFault} {c : ClassId}
    (hc : w.registry.find? f.kind.className = some c) :
    (w.materialize f).2.className (w.materialize f).1 = f.kind.className := by
  have hfound := (w.sameSide_materialize f).classes.registry.find?_eq hc
  rw [className, classOf_materialize, hc, Option.getD_some, Registry.nameOf_of_find? hfound]

end World

namespace Guest

open World

variable {call call' : Invoker H} {w w' : World H} {c : ClassId} {n : Nat}

/-! ## Runs -/

/-- What is asked for is done in order, however it asks for calls that agree. -/
theorem agree_command (hcall : CallsAgree n call call') (command : Command)
    (hw : Within none n w) : command.run call w = command.run call' w ∧
      (command.run call w).Settles (Follows w) := by
  have kc := agree_congruence (H := H) n
  have hguest : ∀ {a a' : Guest H Unit}, Agree n a a' → a w = a' w ∧ (a w).Settles (Follows w) := by
    intro a a' h
    have hleaves := leaves_of_keeps_orderly h.orderly hw.toPlain
    have hagree := h.agree w hw
    refine ⟨hagree.same, (hagree.settles.and_leaves hleaves).mono fun w' ⟨hstays, honward⟩ => ?_⟩
    exact hw.toInOrderBut.follows_of_onward honward hstays
  cases command with
  | define spec => exact ⟨rfl, hw.toInOrderBut.follows_define spec⟩
  | prepare c => exact hguest (kc.initClass hcall c)
  | allocate c => exact hguest ((kc.allocate hcall c).bind fun _ => .still (.pure ()))
  | call m receiver args => exact hguest (kc.discardCall hcall m receiver args)
  | evaluate e => exact hguest ((kc.evaluate none [] hcall e).bind fun _ => .still (.pure ()))

theorem agree_perform (hcall : CallsAgree n call call') (commands : List Command)
    (hw : Within none n w) : perform call commands w = perform call' commands w ∧
      (perform call commands w).Settles (Follows w) := by
  induction commands generalizing w with
  | nil => exact ⟨rfl, hw.toInOrderBut.follows⟩
  | cons command commands ih =>
    obtain ⟨hsame, hsettles⟩ := agree_command hcall command hw
    have hresult : (discard (command.run call).result w : Outcome H Empty Unit) =
        discard (command.run call').result w := Action.bind_congr (Action.result_congr hsame)
    have hfollows : (discard (command.run call).result w : Outcome H Empty Unit).Settles
        (Follows w) := hsettles.result.bind (fun _ => id) fun _ _ _ h => h
    constructor
    · refine Eq.trans (Action.bind_congr_ok fun _ w' h => ?_) (Action.bind_congr hresult)
      rw [h] at hfollows
      exact (ih (hfollows.within hw)).1
    · exact hfollows.bind (fun _ => id) fun _ w' _ h => (ih (h.within hw)).2.mono fun _ => h.trans

/-! ## What holds in every state of a run -/

/-- How a call that claims a class ends. -/
theorem initClass_of_attempt (h : w.registry.Ranked)
    (hinit : (w.classState c).init = .untouched) :
    (∀ w', initClass call c w = .ok () w' ↔ ∃ v,
      attempt call c (w.setInit c (.running w.thread.id)) = .ok () v ∧ w' = v.setInit c .done) ∧
    ∀ thrown w', initClass call c w = .error thrown w' ↔ ∃ v,
      attempt call c (w.setInit c (.running w.thread.id)) = .error thrown v ∧
        w' = v.setInit c .failed := by
  rw [initClass_of_untouched h hinit, result_bind_noteInit]
  cases attempt call c (w.setInit c (.running w.thread.id)) <;> simp [eq_comm]

/-- How initialization goes from a state on. -/
structure Governed (native : NativeCode H) (call : Invoker H) (w : World H) : Prop where
  /-- Every call moves classes on step by step, however it ends. -/
  moves : ∀ m receiver args, (call m receiver args w).Leaves fun w' =>
    ∀ c, Moves w.thread.id (w.classState c).init (w'.classState c).init
  /-- The call that claims a class answers if the attempt to initialize it does. -/
  success : ∀ c w', (w.classState c).init = .untouched →
    (initClass call c w = .ok () w' ↔ ∃ v,
      attempt call c (w.setInit c (.running w.thread.id)) = .ok () v ∧ w' = v.setInit c .done)
  /-- It throws the very throwable that made the attempt fail, if one did. -/
  failure : ∀ c thrown w', (w.classState c).init = .untouched →
    (initClass call c w = .error thrown w' ↔ ∃ v,
      attempt call c (w.setInit c (.running w.thread.id)) = .error thrown v ∧
        w' = v.setInit c .failed)
  /-- Then the class has failed. -/
  failed : ∀ c thrown w', (w.classState c).init = .untouched →
    initClass call c w = .error thrown w' → (w'.classState c).init = .failed
  /-- Every later call that would initialize the class throws, always of one class. -/
  unusable : ∀ c, (w.classState c).init = .failed → ∃ thrown w',
    initClass call c w = .error thrown w' ∧ w'.className thrown = "java/lang/NoClassDefFoundError"
  /-- Initializers start only in classes that are in progress, behind a superclass that is ready. -/
  starts : ∀ other c, initClass (starting other call) c w = initClass call c w
  /-- The bodies of static methods are run only in classes that are ready. -/
  enters : ∀ other, callWith call (entering other (runBody native call)) = invokeWith native call
  /-- Instances are made only of classes that are ready. -/
  makes : ∀ c o w', allocate call c w = .ok o w' →
    ∃ v, initClass call c w = .ok () v ∧ v.Ready c ∧ v.newInstance c = (o, w')

theorem find?_noClassDefFound :
    Registry.basic.find? FaultKind.noClassDefFound.className = some ⟨12⟩ := by
  decide +kernel

theorem governed_of_inOrder {native : NativeCode H} (hcall : CallsKeep Orderly call)
    (hw : w.InOrder) : Governed native call w where
  moves m receiver args :=
    (leaves_of_keeps_orderly (hcall m receiver args) hw.toPlain).mono fun _ ho => ho.moves
  success _ _ hinit := (initClass_of_attempt hw.ranked hinit).1 _
  failure _ _ _ hinit := (initClass_of_attempt hw.ranked hinit).2 _ _
  failed c thrown w' hinit herror := by
    obtain ⟨v, hattempt, rfl⟩ := ((initClass_of_attempt hw.ranked hinit).2 thrown w').1 herror
    have hleaves := leaves_of_keeps_orderly (orderly_neutral.initClass hcall c) hw.toPlain
    rw [herror] at hleaves
    have hknown : c.index < w.registry.size := hw.toPlain.lt_size (by rw [hinit]; nofun)
    refine init_setInit_self ?_
    rw [show v.states.size = (v.setInit c .failed).states.size from
      (Array.size_setIfInBounds ..).symm, hleaves.plain.sized]
    exact Nat.lt_of_lt_of_le hknown hleaves.registry.size_le
  unusable c hfailed := by
    let fault : GuestFault :=
      ⟨.noClassDefFound, "could not initialize class " ++ w.registry.dottedName c⟩
    have hfind : w.registry.find? fault.kind.className = some ⟨12⟩ :=
      hw.basic.find?_eq find?_noClassDefFound
    refine ⟨(w.materialize fault).1, (w.materialize fault).2, ?_, className_materialize hfind⟩
    rw [initClass, initClassWithin_succ, hfailed]
    rfl
  starts other c := initClass_starting hcall other hw.toPlain c
  enters other := callWith_entering other call _
  makes _ _ _ h := ready_of_allocate h

/-- With fuel for as many nested calls as the bound allows, a run without native code is never cut
short; a check that holds in states in order may stand in front of every call, and what would happen
where it fails or where the fuel runs out does not matter.  The run ends in order, and from then on
every class that is there moves on step by step and stays where its initialization ends.
Initialization is governed in every state in order. -/
theorem runs_stay_in_order (native : NativeCode H) {fuel maxCallDepth : Nat}
    (hfuel : maxCallDepth < fuel) (memory : HostMemory) (host : H) (commands : List Command) :
    (∀ r w, perform (invoke native fuel) commands (World.start maxCallDepth memory host) ≠ .halt r w) ∧
    (∀ (p : World H → Prop) [DecidablePred p], (∀ v : World H, v.InOrder → p v) → ∀ other,
      perform (watched native p other fuel) commands (World.start maxCallDepth memory host) =
        perform (invoke native fuel) commands (World.start maxCallDepth memory host)) ∧
    (∀ w, perform (invoke native fuel) commands (World.start maxCallDepth memory host) = .ok () w →
      w.InOrder ∧
        ∀ later w', perform (invoke native fuel) later w = .ok () w' →
          ∀ c, c.index < w.registry.size →
            Moves w.thread.id (w.classState c).init (w'.classState c).init ∧
              ((w.classState c).init = .done ∨ (w.classState c).init = .failed →
                (w'.classState c).init = (w.classState c).init)) ∧
    ∀ v : World H, v.InOrder → Governed native (invoke native fuel) v := by
  have hstart := within_start maxCallDepth memory host
  have hcalls : ∀ (p : World H → Prop) [DecidablePred p], (∀ v : World H, v.InOrder → p v) →
      ∀ other, CallsAgree maxCallDepth (invoke native fuel) (watched native p other fuel) :=
    fun p _ hp other => agree_watched hp other hfuel
  have hself := hcalls (fun _ => True) (fun _ _ => trivial) fun _ _ _ => Action.halt .misuse
  have hrun := (agree_perform hself commands hstart).2
  refine ⟨fun r w h => ?_, fun p _ hp other => ?_, fun w h => ?_, fun v hv => ?_⟩
  · rw [h] at hrun
    exact hrun
  · exact ((agree_perform (hcalls p hp other) commands hstart).1).symm
  · rw [h] at hrun
    refine ⟨hrun.inOrder, fun later w' hlater c hc => ?_⟩
    have hafter := (agree_perform hself later (hrun.within hstart)).2
    rw [hlater] at hafter
    exact ⟨hafter.moves c hc, (hafter.moves c hc).eq_of_ended⟩
  · exact governed_of_inOrder (orderly_invoke native fuel) hv

/-- A class whose initializer throws. -/
def faulty : ClassSpec :=
  ⟨"Faulty", .concrete, some "java/lang/Object", [], [],
    [.initializer (.throwFault .illegalArgument "no")]⟩

/-- A class that extends it. -/
def heir : ClassSpec := ⟨"Heir", .concrete, some "Faulty", [], [], []⟩

/-- Both classes are defined, and the second one is initialized. -/
def inherit : List Command := [.define faulty, .define heir, .prepare ⟨29⟩]

/-- How methods are called where no native code can run. -/
def plainCall : Invoker Unit := invoke (fun _ _ => Action.halt .misuse) 3

/-- The state in which a run ends. -/
def lastState : Outcome H Empty Unit → Option (World H)
  | .ok _ w => some w
  | _ => none

theorem of_lastState {o : Outcome H Empty Unit} (h : lastState o = some w) : o = .ok () w := by
  cases o with
  | ok _ _ =>
    cases h
    rfl
  | _ => cases h

theorem inherit_ends : ∃ w, perform plainCall inherit (World.start 2 .growing ()) = .ok () w ∧
    ((w.classState ⟨28⟩).init, (w.classState ⟨29⟩).init, w.started) =
      (InitState.failed, InitState.failed, [⟨28⟩]) := by
  have hlast : (lastState (perform plainCall inherit (World.start 2 .growing ()))).map (fun w =>
      ((w.classState ⟨28⟩).init, (w.classState ⟨29⟩).init, w.started)) =
      some (InitState.failed, InitState.failed, [⟨28⟩]) := by decide +kernel
  obtain ⟨w, hlast, hstates⟩ := Option.map_eq_some_iff.1 hlast
  exact ⟨w, of_lastState hlast, hstates⟩

/-- The initializer of the superclass runs once and throws.  Both classes have failed, and the next
attempt to initialize the superclass finds that out. -/
theorem inherit_stays_failed : 2 < 3 ∧ ∃ w,
    perform plainCall inherit (World.start 2 .growing ()) = .ok () w ∧ w.InOrder ∧
    w.started = [⟨28⟩] ∧ (w.classState ⟨29⟩).init = .failed ∧ ∃ thrown w',
      initClass plainCall ⟨28⟩ w = .error thrown w' ∧
        w'.className thrown = "java/lang/NoClassDefFoundError" := by
  have hfuel : 2 < 3 := by decide
  obtain ⟨-, -, hends, hgoverned⟩ :=
    runs_stay_in_order (fun _ _ => Action.halt .misuse) hfuel .growing () inherit
  obtain ⟨w, hrun, hstates⟩ := inherit_ends
  obtain ⟨hsuper, hrest⟩ := Prod.mk.inj hstates
  obtain ⟨hown, hstarted⟩ := Prod.mk.inj hrest
  have horder := (hends w hrun).1
  exact ⟨hfuel, w, hrun, horder, hstarted, hown, (hgoverned w horder).unusable ⟨28⟩ hsuper⟩

end Guest

end GuestBoundary
