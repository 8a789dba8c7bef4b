import GuestBoundary.Proofs.Effects.Attachment
import GuestBoundary.Proofs.Exceptions.Probes
import GuestBoundary.Proofs.Guest.Order

/-!
# Panics in static initializers

A static initializer that throws makes its class unusable: whoever asks for it afterwards is thrown
a `NoClassDefFoundError`.  One that panics does not.  The panic passes by the place where the end of
an initialization is noted, up to the function of the interface that contains it, so the class stays
as if its thread were still initializing it, and so do the subclasses that waited for it.  From then
on that thread uses the class as though it were ready, and any other thread waits for ever
(`initializer_panic_leaves_class_running`).
-/

namespace GuestBoundary

open World

variable {H ε δ α β : Type}

/-! ## Classes that are not ready for other threads -/

/-- Other threads cannot use the class: its initialization is going on, or it has failed. -/
def InitState.isBarred : InitState → Bool
  | .running _ | .failed => true
  | .untouched | .done => false

namespace World

variable {w w' w'' v : World H} {c : ClassId}

/-- Classes that are not ready for other threads stand as they did. -/
structure Stands (w w' : World H) : Prop where
  sized : w.states.size = w.registry.size → w'.states.size = w'.registry.size
  init : ∀ c, (w.classState c).init.isBarred = true →
    (w'.classState c).init = (w.classState c).init

theorem Stands.refl (w : World H) : Stands w w := ⟨id, fun _ _ => rfl⟩

theorem Stands.trans (h : Stands w w') (h' : Stands w' w'') : Stands w w'' where
  sized hs := h'.sized (h.sized hs)
  init c hc := (h'.init c (by rwa [h.init c hc])).trans (h.init c hc)

theorem Stands.of_eq (hstates : w'.states = w.states) (hregistry : w'.registry = w.registry) :
    Stands w w' where
  sized hs := by rw [hstates, hregistry, hs]
  init c _ := by rw [classState, classState, hstates]

/-- A class that is not ready stays where it is. -/
theorem Stands.init_eq (h : Stands w w') {i : InitState} (hi : i.isBarred = true)
    (hc : (w.classState c).init = i) : (w'.classState c).init = i := by
  rw [h.init c (by rw [hc, hi]), hc]

theorem SameClasses.stands (h : SameClasses w w') : Stands w w' := ⟨h.sized, fun c _ => h.init c⟩

/-- How far a class has come that no thread was at is another matter. -/
theorem Stands.setInit (h : Stands w v) (hc : (w.classState c).init.isBarred = false)
    (i : InitState) : Stands w (v.setInit c i) where
  sized hs := (Array.size_setIfInBounds ..).trans (h.sized hs)
  init d hd := by
    have hne : d ≠ c := by
      rintro rfl
      rw [hc] at hd
      cases hd
    rw [init_setInit_of_ne hne, h.init d hd]

theorem stands_defineOrKeep (hsized : w.states.size = w.registry.size) (spec : ClassSpec) :
    Stands w (w.defineOrKeep spec) := by
  rcases w.defineOrKeep_cases spec with heq | ⟨k, s, heq, -, -⟩ <;> rw [heq]
  · exact .refl w
  · refine ⟨fun _ => sized_add hsized, fun c hc => ?_⟩
    have hlt : c.index < w.states.size := lt_size_of_init_ne fun h => by
      rw [h] at hc
      cases hc
    rw [classState_add_of_lt hsized (hsized ▸ hlt)]

/-- What runs on a thread ends on it, with as many calls in progress as before, and leaves alone
the classes that are not ready for other threads. -/
structure Persists (w w' : World H) : Prop where
  thread : w'.thread.id = w.thread.id
  depth : w'.thread.depth = w.thread.depth
  stands : Stands w w'

theorem persists_composable : Composable (Persists (H := H)) where
  refl w := ⟨rfl, rfl, .refl w⟩
  trans h h' := ⟨h'.thread.trans h.thread, h'.depth.trans h.depth, h.stands.trans h'.stands⟩

theorem SameSide.persists (h : SameSide w w') : Persists w w' :=
  ⟨congrArg Thread.id h.thread, congrArg Thread.depth h.thread, h.classes.stands⟩

end World

/-! ## What runs -/

namespace Guest

variable {call : Invoker H} {c : ClassId} {depth : Nat}

section Persists

variable (hcall : CallsKeep Persists call)
include hcall

theorem persists_runInitializer (r : Registry) (c : ClassId) :
    Keeps Persists (runInitializer call r c) := by
  have p := persists_composable (H := H)
  unfold runInitializer
  split
  next m _ =>
    refine Keeps.bind p (.update fun w => ?_) fun _ => .discard p (hcall m none [])
    exact ⟨rfl, rfl, .of_eq rfl rfl⟩
  next => exact .pure p ()

theorem persists_initClassWithin (depth : Nat) (c : ClassId) :
    Keeps Persists (initClassWithin call depth c) := by
  have p := persists_composable (H := H)
  induction depth generalizing c with
  | zero => exact .pure p ()
  | succ depth ih =>
    intro w
    rw [initClassWithin_succ]
    cases hinit : (w.classState c).init with
    | done => exact p.refl w
    | running t =>
      dsimp only
      split
      · exact p.refl w
      · trivial
    | failed => exact (w.sameSide_materialize _).persists
    | untouched =>
      -- The class is claimed and settled by the same call, so both changes are its own.
      have hfree : (w.classState c).init.isBarred = false := by rw [hinit]; rfl
      have hclaim : Persists w (w.setInit c (.running w.thread.id)) :=
        ⟨rfl, rfl, (Stands.refl w).setInit hfree _⟩
      have hrun : Keeps Persists (runInitializers call w.registry depth c) := by
        have hsuper : Keeps Persists (initSuper call w.registry depth c) := by
          unfold initSuper
          split
          · exact ih _
          · exact .pure p ()
        rw [runInitializers_eq]
        exact hsuper.bind p fun _ => persists_runInitializer hcall _ c
      have hleaves := (hrun (w.setInit c (.running w.thread.id))).mono fun v => p.trans hclaim
      refine Outcome.Leaves.bind (Keeps.result_at hleaves) (fun _ => id) fun result v _ h => ?_
      cases result with
      | ok _ => exact ⟨h.thread, h.depth, h.stands.setInit hfree .done⟩
      | error thrown => exact ⟨h.thread, h.depth, h.stands.setInit hfree .failed⟩

theorem persists_initSuper (r : Registry) (depth : Nat) (c : ClassId) :
    Keeps Persists (initSuper call r depth c) := by
  unfold initSuper
  split
  · exact persists_initClassWithin hcall depth _
  · exact .pure persists_composable ()

end Persists

end Guest

theorem persists_neutral : AttachmentNeutral (Persists (H := H)) where
  toComposable := persists_composable
  sameSide h := h.persists
  initClass hcall c := Guest.persists_initClassWithin hcall _ c
  withBridge _ _ := ⟨rfl, rfl, .of_eq rfl rfl⟩
  setAttachment _ := ⟨rfl, rfl, .of_eq rfl rfl⟩

theorem persists_inCall {w w' : World H} (h : Persists (w.setDepth (w.thread.depth + 1)) w') :
    Persists w (w'.setDepth (w'.thread.depth - 1)) := by
  have hin : Stands w (w.setDepth (w.thread.depth + 1)) := .of_eq rfl rfl
  have hout : Stands w' (w'.setDepth (w'.thread.depth - 1)) := .of_eq rfl rfl
  refine ⟨h.thread, ?_, (hin.trans h.stands).trans hout⟩
  show w'.thread.depth - 1 = w.thread.depth
  rw [h.depth]
  rfl

namespace World

variable {native : NativeCode H} {w w' : World H} {c : ClassId}

/-- What the embedding program does is not about classes, such as going on with another thread. -/
def SameTable (w w' : World H) : Prop := w'.states = w.states ∧ w'.registry = w.registry

/-- Whatever happens, classes that are not ready for other threads stand as they did. -/
theorem Steps.stands (hnative : NativeKeeps Persists native)
    (hsized : w.states.size = w.registry.size) (h : Steps (Guest.invoke native) SameTable w w') :
    Stands w w' := by
  -- A class that is defined finds its place behind the others where there is a state for each.
  have p : Composable fun w w' : World H => w.states.size = w.registry.size → Stands w w' :=
    ⟨fun w _ => .refl w, fun h h' hs => (h hs).trans (h' ((h hs).sized hs))⟩
  exact Steps.keeps persists_neutral (persists_neutral.invoke hnative persists_inCall) p
    (fun h _ => h.stands) (fun _ spec hs => stands_defineOrKeep hs spec)
    (fun ⟨hstates, hregistry⟩ _ => .of_eq hstates hregistry) h hsized

/-- Whatever happens, nobody can use the class any more. -/
def Unusable (native : NativeCode H) (w : World H) (c : ClassId) : Prop :=
  ∀ w', Steps (Guest.invoke native) SameTable w w' → (w'.classState c).init = .failed ∧
    ∀ call, Guest.initClass call c w' = Guest.throwFault
      ⟨.noClassDefFound, "could not initialize class " ++ w'.registry.dottedName c⟩ w'

/-- Whatever happens, a thread uses the class as if it were ready, and all other threads wait. -/
def LeftTo (native : NativeCode H) (w : World H) (c : ClassId) (t : ThreadId) : Prop :=
  ∀ w', Steps (Guest.invoke native) SameTable w w' → (w'.classState c).init = .running t ∧
    ∀ call, Guest.initClass call c w' =
      if t = w'.thread.id then .ok () w' else .halt (.deadlock (.initialization c)) w'

section Verdict

variable (hnative : NativeKeeps Persists native) (hsized : w.states.size = w.registry.size)
include hnative hsized

theorem unusable_of_failed (h : (w.classState c).init = .failed) : Unusable native w c := by
  intro w' hsteps
  have hinit : (w'.classState c).init = .failed := (hsteps.stands hnative hsized).init_eq rfl h
  refine ⟨hinit, fun call => ?_⟩
  rw [Guest.initClass, Guest.initClassWithin_succ, hinit]

theorem leftTo_of_running {t : ThreadId} (h : (w.classState c).init = .running t) :
    LeftTo native w c t := by
  intro w' hsteps
  have hinit : (w'.classState c).init = .running t := (hsteps.stands hnative hsized).init_eq rfl h
  refine ⟨hinit, fun call => ?_⟩
  rw [Guest.initClass, Guest.initClassWithin_succ, hinit]

end Verdict

end World

/-! ## From the panic to the function that contains it -/

/-- On its course from a state, an action comes to another one in another state, and ends where that
one panics.  Nothing on the way contains panics. -/
inductive Action.ComesTo {δ β : Type} (b : Action H δ β) (v : World H) :
    {ε α : Type} → Action H ε α → World H → Prop
  | here : ComesTo b v b v
  | first {ε α α' : Type} {a : Action H ε α} {f : α → Action H ε α'} {w : World H}
    (h : ComesTo b v a w) : ComesTo b v (a >>= f) w
  | next {ε α α' : Type} {a : Action H ε α} {f : α → Action H ε α'} {w w' : World H} {x : α}
    (ha : a w = .ok x w') (h : ComesTo b v (f x) w') : ComesTo b v (a >>= f) w
  | mapError {ε ε' α : Type} {a : Action H ε α} {g : ε → ε'} {w : World H}
    (h : ComesTo b v a w) : ComesTo b v (a.mapError g) w
  | result {ε ε' α : Type} {a : Action H ε α} {w : World H} (h : ComesTo b v a w) :
    ComesTo b v (a.result : Action H ε' (Except ε α)) w
  /-- What is done at the end is not about classes, and on the same thread. -/
  | andFinally {ε α : Type} {a : Action H ε α} {g : World H → World H} {w : World H}
    (hg : ∀ w, (g w).classSide = w.classSide ∧ (g w).thread.id = w.thread.id)
    (h : ComesTo b v a w) : ComesTo b v (a.andFinally g) w
  /-- The action is the same as another one from another state. -/
  | congr {ε α : Type} {a a' : Action H ε α} {w w' : World H} (same : a w = a' w')
    (h : ComesTo b v a' w') : ComesTo b v a w

namespace Action.ComesTo

variable {a : Action H ε α} {b : Action H δ β} {w v u : World H}

/-- A panic changes nothing about classes on its way up. -/
theorem panics (h : ComesTo b v a w) {m : Option String} (hb : b v = .panic m u) :
    ∃ w', a w = .panic m w' ∧ w'.classSide = u.classSide ∧ w'.thread.id = u.thread.id := by
  induction h with
  | here => exact ⟨u, hb, rfl, rfl⟩
  | first _ ih =>
    obtain ⟨w', ha, h⟩ := ih
    exact ⟨w', bind_panic ha, h⟩
  | next ha _ ih =>
    obtain ⟨w', hf, h⟩ := ih
    exact ⟨w', (bind_ok ha).trans hf, h⟩
  | mapError _ ih =>
    obtain ⟨w', ha, h⟩ := ih
    exact ⟨w', by rw [Action.mapError, ha], h⟩
  | result _ ih =>
    obtain ⟨w', ha, h⟩ := ih
    exact ⟨w', result_panic ha, h⟩
  | @andFinally ε α a g w hg _ ih =>
    obtain ⟨w', ha, hside, hthread⟩ := ih
    obtain ⟨hgside, hgthread⟩ := hg w'
    exact ⟨g w', by rw [Action.andFinally, ha], hgside.trans hside, hgthread.trans hthread⟩
  | congr same _ ih =>
    obtain ⟨w', ha, h⟩ := ih
    exact ⟨w', same.trans ha, h⟩

theorem trans {γ ζ : Type} {c : Action H γ ζ} {x : World H} (h : ComesTo b v a w)
    (h' : ComesTo a w c x) : ComesTo b v c x := by
  induction h' with
  | here => exact h
  | first _ ih => exact .first ih
  | next ha _ ih => exact .next ha ih
  | mapError _ ih => exact .mapError ih
  | result _ ih => exact .result ih
  | andFinally hg _ ih => exact .andFinally hg ih
  | congr same _ ih => exact .congr same ih

theorem holding {objects : List ObjectRef}
    (h : ComesTo b v a { w with held := objects ++ w.held }) :
    ComesTo b v (Action.holding objects a) w := by
  have hreleasing : ComesTo b v (a.andFinally fun after => { after with held := w.held })
      { w with held := objects ++ w.held } := .andFinally (fun _ => ⟨rfl, rfl⟩) h
  refine .congr ?_ hreleasing
  rfl

end Action.ComesTo

/-! ## Initializers -/

namespace Guest

variable {call : Invoker H} {c : ClassId} {m : MethodRef} {depth : Nat} {v v' : World H}

/-- The initialization of an untouched class has come to the call of its static initializer. -/
structure Starts (call : Invoker H) (depth : Nat) (c : ClassId) (m : MethodRef)
    (v v' : World H) : Prop where
  untouched : (v.classState c).init = .untouched
  initializer : v.registry.initializer? c = some m
  arrives : ∃ u, initSuper call v.registry depth c (v.setInit c (.running v.thread.id)) =
    .ok () u ∧ v' = u.noteStart c

/-- How the initialization of the class ends is up to its initializer.  Only an end that is a panic
is not noted. -/
theorem initClassWithin_of_starts (h : Starts call depth c m v v') :
    initClassWithin call (depth + 1) c v =
      match call m none [] v' with
      | .ok _ u => .ok () (u.setInit c .done)
      | .error thrown u => .error thrown (u.setInit c .failed)
      | .panic message u => .panic message u
      | .halt reason u => .halt reason u := by
  obtain ⟨u, hsuper, rfl⟩ := h.arrives
  have hrun : runInitializers call v.registry depth c (v.setInit c (.running v.thread.id)) =
      (discard (call m none []) : Guest H Unit) (u.noteStart c) := by
    rw [runInitializers_eq, Action.bind_ok hsuper, runInitializer, h.initializer]
    rfl
  rw [initClassWithin_succ, h.untouched]
  cases hm : call m none [] (u.noteStart c) with
  | ok x u' => exact Action.bind_ok (Action.result_ok (hrun.trans (Action.bind_ok hm)))
  | error thrown u' => exact Action.bind_ok (Action.result_error (hrun.trans (Action.bind_error hm)))
  | panic message u' =>
    exact Action.bind_panic (Action.result_panic (hrun.trans (Action.bind_panic hm)))
  | halt reason u' => exact Action.bind_halt (Action.result_halt (hrun.trans (Action.bind_halt hm)))

/-- On the way to the initializer of a class comes the initialization of its superclass. -/
theorem comesTo_superclass {s : ClassId} (huntouched : (v.classState c).init = .untouched)
    (hs : (v.registry.get c).superclass = some s) :
    Action.ComesTo (initClassWithin call depth s) (v.setInit c (.running v.thread.id))
      (initClassWithin call (depth + 1) c) v := by
  have hsuper : initSuper call v.registry depth c = initClassWithin call depth s := by
    rw [initSuper, hs]
  have heq : initClassWithin call (depth + 1) c v =
      ((initClassWithin call depth s >>= fun _ => runInitializer call v.registry c).result >>=
        noteInit c) (v.setInit c (.running v.thread.id)) := by
    rw [initClassWithin_succ, huntouched, runInitializers_eq, hsuper]
  exact .congr heq (.first (.result (.first .here)))

/-- Meanwhile the class is its thread's. -/
theorem Starts.running (hcall : CallsKeep Persists call) (h : Starts call depth c m v v') :
    (v'.classState c).init = .running v.thread.id ∧
      Persists (v.setInit c (.running v.thread.id)) v' := by
  obtain ⟨u, hsuper, rfl⟩ := h.arrives
  have hclaimed : ((v.setInit c (.running v.thread.id)).classState c).init =
      .running v.thread.id :=
    init_setInit_self (lt_size_of_init_ne (by rw [h.untouched]; nofun))
  have hpersists : Persists (v.setInit c (.running v.thread.id)) u := by
    have hkeeps : Keeps Persists (initSuper call v.registry depth c) :=
      persists_initSuper hcall _ depth c
    have := hkeeps (v.setInit c (.running v.thread.id))
    rwa [hsuper] at this
  exact ⟨hpersists.stands.init_eq rfl hclaimed, hpersists.thread, hpersists.depth,
    hpersists.stands.trans (.of_eq rfl rfl)⟩

end Guest

namespace Interface

open Guest

/-- What is left of a panic in a static initializer, which was called in `v`, when the function of
the interface that contains it has answered. -/
structure Unwound (native : NativeCode H) (f : Function) (message : Option String) (c : ClassId)
    (w v w' : World H) : Prop where
  raised : ∃ u : World H, w' = u.raised ⟨.internal, f.name ++ ": " ++ message.getD unknownPanic⟩ ∧
    (u.IsAttached → w'.pending = some ⟨u.heap.size⟩)
  thread : w'.thread.id = w.thread.id
  depth : w'.thread.depth = w.thread.depth
  own : LeftTo native w' c w.thread.id
  /-- Subclasses for which the class was initialized, and other classes in progress. -/
  others : ∀ d t, (v.classState d).init = .running t → LeftTo native w' d t

/-- How the initialization of a class goes on from the call of its static initializer in `v'`, and
what that means for the function of the interface on whose behalf the class is initialized. -/
structure Concludes (native : NativeCode H) (fuel n depth : Nat) (f : Function)
    (args : List Argument) (c : ClassId) (m : MethodRef) (w v v' : World H) : Prop where
  returned : ∀ x u, invoke native n m none [] v' = .ok x u →
    initClassWithin (invoke native n) (depth + 1) c v = .ok () (u.setInit c .done)
  threw : ∀ thrown u, invoke native n m none [] v' = .error thrown u →
    initClassWithin (invoke native n) (depth + 1) c v = .error thrown (u.setInit c .failed) ∧
      Unusable native (u.setInit c .failed) c
  panicked : ∀ message u, invoke native n m none [] v' = .panic message u → ∃ w',
    ask (invoke native fuel) f args w = .ok (.plain f.failure) w' ∧
      Unwound native f message c w v' w'

section Panics

variable {native : NativeCode H} {fuel n depth : Nat} {f : Function} {args : List Argument}
  {c : ClassId} {m : MethodRef} {w v v' : World H}

theorem persists_raised (w : World H) (fault : GuestFault) : Persists w (w.raised fault) :=
  persists_composable.trans (w.sameSide_materialize fault).persists
    (persists_neutral.entryNeutral.pending _ fun p => p.set (w.materialize fault).1)

/-- Only the `InternalError` is added to what the panic left. -/
theorem unwound_of_stands (hnative : NativeKeeps Persists native) {u : World H}
    {message : Option String} (hsized : v.states.size = v.registry.size) (hu : Persists w u)
    (hstands : Stands v u) (hrunning : (v.classState c).init = .running w.thread.id) :
    Unwound native f message c w v
      (u.raised ⟨.internal, f.name ++ ": " ++ message.getD unknownPanic⟩) := by
  have hraised := persists_raised u ⟨.internal, f.name ++ ": " ++ message.getD unknownPanic⟩
  have hstands' := hstands.trans hraised.stands
  have hleft : ∀ d t, (v.classState d).init = .running t → LeftTo native _ d t := fun d t hd =>
    leftTo_of_running hnative (hstands'.sized hsized) (hstands'.init_eq rfl hd)
  exact {
    raised := ⟨u, rfl, fun hattached => pending_raised hattached _⟩
    thread := hraised.thread.trans hu.thread
    depth := hraised.depth.trans hu.depth
    own := hleft c _ hrunning
    others := hleft }

/-- A static initializer that throws leaves its class unusable.  One that panics leaves it to its
thread for ever, and with it the classes that were being initialized around it; all else that it
leaves is a pending `InternalError`. -/
theorem initializer_panic_leaves_class_running (hnative : NativeKeeps Persists native)
    (hw : w.IsAttached) (hs : Shaped f args) (hsized : v.states.size = v.registry.size)
    (hcourse : Action.ComesTo (initClassWithin (invoke native n) (depth + 1) c) v
      (perform (invoke native fuel) f args) w)
    (hstarts : Starts (invoke native n) depth c m v v') :
    Concludes native fuel n depth f args c m w v v' := by
  have hcalls : ∀ fuel, CallsKeep Persists (invoke native fuel) := persists_neutral.invoke hnative persists_inCall
  have hinit := initClassWithin_of_starts hstarts
  obtain ⟨hrunning, hclaimed⟩ := hstarts.running (hcalls n)
  have hsized' : v'.states.size = v'.registry.size :=
    hclaimed.stands.sized ((Array.size_setIfInBounds ..).trans hsized)
  have hbody := hcalls n m none [] v'
  constructor
  case returned =>
    intro x u hm
    rw [hinit, hm]
  case threw =>
    intro thrown u hm
    rw [hm] at hbody hinit
    have hstands : Stands v' u := Persists.stands hbody
    have hlt : c.index < u.states.size := by
      refine lt_size_of_init_ne ?_
      rw [hstands.init_eq rfl hrunning]
      nofun
    have hsettled : (u.setInit c .failed).states.size = (u.setInit c .failed).registry.size :=
      (Array.size_setIfInBounds ..).trans (hstands.sized hsized')
    exact ⟨hinit, unusable_of_failed hnative hsettled (init_setInit_self hlt)⟩
  case panicked =>
    intro message u hm
    rw [hm] at hbody hinit
    have hbody : Persists v' u := hbody
    obtain ⟨w₁, hperform, hside, hthread⟩ := hcourse.panics hinit
    have hpersists : Persists w w₁ := by
      have := persists_neutral.perform (hcalls fuel) hs w
      rwa [hperform] at this
    -- The class states of the initializer's end are those of the function's end.
    have hstands : Stands v' w₁ := by
      have hstates : w₁.states = u.states := congrArg (fun side => side.2.1) hside
      have hregistry : w₁.registry = u.registry := congrArg Prod.fst hside
      exact hbody.stands.trans (.of_eq hstates hregistry)
    have hid : v.thread.id = w.thread.id := by
      rw [← hpersists.thread, hthread, hbody.thread, hclaimed.thread]
      rfl
    exact ⟨_, callFunction_panics hw hperform,
      unwound_of_stands hnative hsized' hpersists hstands (hid ▸ hrunning)⟩

end Panics

/-! ## Functions that initialize classes -/

section Comes

open Entry Action.ComesTo

variable {call : Invoker H} {native : NativeCode H} {fuel : Nat} {c : ClassId} {m : MethodRef}
  {w v : World H} {args : List Value}

theorem comesTo_guest {b : Action H δ β} {a : Guest H α} (h : Action.ComesTo b v a w) :
    Action.ComesTo b v (guest a) w := h.mapError

theorem comesTo_allocate (hconcrete : (w.registry.get c).isInstantiable = true) :
    Action.ComesTo (initClass call c) w (allocate call c) w := by
  have hinstance : Action.ComesTo (initClass call c) w
      (initClass call c >>= fun _ => Action.step fun w => w.newInstance c) w := .first .here
  refine .congr ?_ hinstance
  rw [allocate_eq, if_pos hconcrete]

theorem comesTo_constructWith (hconcrete : (w.registry.get c).isInstantiable = true) :
    Action.ComesTo (initClass call c) { w with held := args.filterMap Value.object? ++ w.held }
      (constructWith call c m args) w :=
  .holding (.first (comesTo_allocate hconcrete))

/-- What the constructor of a throwable is passed. -/
def messageArgument : Option String → Guest H Value
  | some text => do
    let o ← Guest.newString (Text.units text)
    return .ofObject o
  | none => return .null

theorem comesTo_newThrowable {message : Option String} {x : Value}
    (hsub : w.registry.isSubclass c CoreClass.throwable.id = true)
    (hx : messageArgument message w = .ok x v)
    (hm : resolveMethod c Method.constructorName "(Ljava/lang/String;)V" false v = .ok m v)
    (hconcrete : (v.registry.get c).isInstantiable = true) :
    Action.ComesTo (initClass call c) { v with held := [x].filterMap Value.object? ++ v.held }
      (newThrowable call c message) w := by
  refine .next rfl ?_
  rw [if_pos hsub]
  cases message with
  | none => exact .next hx (.next hm (comesTo_constructWith hconcrete))
  | some text =>
    cases hx
    exact .next rfl (.next rfl (.next hm (comesTo_constructWith hconcrete)))

/-- A function that is called in `w` gets to initialize a class itself, beginning in `v`. -/
inductive Initializes (w : World H) : Function → List Argument → ClassId → World H → Prop
  | findClass {bytes c v} (hc : Guest.findClass (Text.Modified.text bytes) w = .ok c v) :
    Initializes w .findClass [.text (some bytes)] c v
  | allocObject {h c} (hc : (classOf h : Entry H _) w = .ok c w)
    (hconcrete : (w.registry.get c).isInstantiable = true) :
    Initializes w .allocObject [.handle h] c w
  | newObject {h id slots c m args v} (hc : (classOf h : Entry H _) w = .ok c w)
    (hm : (method id : Entry H _) w = .ok m w)
    (hconstructor : (w.registry.method m).isConstructor = true)
    (hargs : (arguments m slots : Entry H _) w = .ok args v)
    (hconcrete : (v.registry.get c).isInstantiable = true) :
    Initializes w .newObject [.handle h, .member id, .arguments slots] c
      { v with held := args.filterMap Value.object? ++ v.held }
  | throwNew {h c m message x v} (hc : (classOf h : Entry H _) w = .ok c w)
    (hsub : w.registry.isSubclass c CoreClass.throwable.id = true)
    (hx : messageArgument (message.map Text.Modified.text) w = .ok x v)
    (hm : resolveMethod c Method.constructorName "(Ljava/lang/String;)V" false v = .ok m v)
    (hconcrete : (v.registry.get c).isInstantiable = true) :
    Initializes w .throwNew [.handle h, .text message] c
      { v with held := [x].filterMap Value.object? ++ v.held }
  | getMethodId mode {h c} name descriptor (hc : (classOf h : Entry H _) w = .ok c w) :
    Initializes w (.getMethodId mode) [.handle h, .text name, .text descriptor] c w
  | getFieldId mode {h c} name descriptor (hc : (classOf h : Entry H _) w = .ok c w) :
    Initializes w (.getFieldId mode) [.handle h, .text name, .text descriptor] c w
  | getField kind {h id c f} (hc : (classOf h : Entry H _) w = .ok c w)
    (hf : (field id : Entry H _) w = .ok f w) (hstatic : (w.registry.field f).isStatic = true) :
    Initializes w (.getField .static kind) [.handle h, .member id] f.owner w
  | setField kind {h id c f} value (hc : (classOf h : Entry H _) w = .ok c w)
    (hf : (field id : Entry H _) w = .ok f w) (hstatic : (w.registry.field f).isStatic = true) :
    Initializes w (.setField .static kind) [.handle h, .member id, value] f.owner w

theorem comesTo_staticField {h : Handle} {id : UInt64} {f : FieldRef}
    (hc : (classOf h : Entry H _) w = .ok c w) (hf : (field id : Entry H _) w = .ok f w)
    (hstatic : (w.registry.field f).isStatic = true) :
    Action.ComesTo (initClass call f.owner) w (staticField call h id) w := by
  refine .next (Action.bind_ok hc) (.next hf (.next rfl ?_))
  rw [if_pos hstatic]
  exact .first (comesTo_guest .here)

/-- So a panic in the initializer of that class is one of the function. -/
theorem Initializes.comesTo {f : Function} {args : List Argument} (h : Initializes w f args c v)
    (call : Invoker H) : Action.ComesTo (initClass call c) v (perform call f args) w := by
  cases h with
  | @findClass bytes c v hc =>
    have hguest : guest (Guest.findClass (Text.Modified.text bytes)) w = .ok c v := by
      rw [guest, Action.mapError, hc]
    exact .first (.next rfl (.next hguest (.first (comesTo_guest .here))))
  | allocObject hc hconcrete =>
    exact .first (.next hc (.first (comesTo_guest (comesTo_allocate hconcrete))))
  | newObject hc hm hconstructor hargs hconcrete =>
    refine .first (.next hc (.next hm (.next rfl ?_)))
    rw [if_pos hconstructor]
    exact .next hargs (.first (comesTo_guest (comesTo_constructWith hconcrete)))
  | throwNew hc hsub hx hm hconcrete =>
    exact .first (.next hc (.first (comesTo_guest (comesTo_newThrowable hsub hx hm hconcrete))))
  | getMethodId mode name descriptor hc =>
    exact .first (.next hc (.first (comesTo_guest .here)))
  | getFieldId mode name descriptor hc =>
    exact .first (.next hc (.first (comesTo_guest .here)))
  | getField kind hc hf hstatic =>
    exact .first (.first (comesTo_staticField hc hf hstatic))
  | setField kind value hc hf hstatic =>
    exact .first (.first (comesTo_staticField hc hf hstatic))

end Comes

/-! ## A class whose initializer panics -/

/-- A class whose static initializer panics. -/
def fuse : ClassSpec :=
  ⟨"Fuse", .concrete, some "java/lang/Object", [], [], [.initializer (.panic (some "boom"))]⟩

/-- A subclass of it. -/
def bomb : ClassSpec := ⟨"Bomb", .concrete, some "Fuse", [], [], []⟩

/-- An attached thread, and both classes. -/
def armed : World Unit :=
  let w := ((World.start World.defaultCallDepth .growing ()).defineOrKeep fuse).defineOrKeep bomb
  { w.setAttachment (some ⟨0, .empty 4096, .empty⟩) with
    linked := true, bridge := some (.empty .default), bridgeHeld := true, attachments := 1 }

/-- No native code. -/
def noNative : NativeCode Unit := fun _ _ => Action.halt .misuse

theorem noNative_keeps : NativeKeeps Persists noNative := fun _ _ => .halt _

/-- The name of the subclass. -/
def bombName : List UInt8 := [66, 111, 109, 98]

/-- Asks for the subclass. -/
def findBomb : Action Unit Empty Answer :=
  ask (invoke noNative 1) .findClass [.text (some bombName)]

/-- The superclass is about to be initialized on behalf of the subclass. -/
def bombClaimed : World Unit := (armed.withRegistry armed.registry).setInit ⟨29⟩ (.running ⟨0⟩)

/-- The initializer of the superclass is about to be called. -/
def fuseStarted : World Unit := (bombClaimed.setInit ⟨28⟩ (.running ⟨0⟩)).noteStart ⟨28⟩

/-- The classes, where they stand on the way, and what the initializer comes to. -/
theorem bomb_facts :
    (armed.registry.find? (Text.Modified.text bombName) = some ⟨29⟩ ∧
      ((armed.withRegistry armed.registry).classState ⟨29⟩).init = .untouched ∧
      (armed.registry.get ⟨29⟩).superclass = some ⟨28⟩ ∧
      (armed.withRegistry armed.registry).thread.id = ⟨0⟩) ∧
    (bombClaimed.states.size = bombClaimed.registry.size ∧
      (bombClaimed.classState ⟨28⟩).init = .untouched ∧
      bombClaimed.registry.initializer? ⟨28⟩ = some ⟨⟨28⟩, 0⟩ ∧
      (bombClaimed.registry.get ⟨28⟩).superclass = some ⟨0⟩ ∧ bombClaimed.thread.id = ⟨0⟩ ∧
      ((bombClaimed.setInit ⟨28⟩ (.running ⟨0⟩)).classState ⟨0⟩).init = .done) ∧
    (fuseStarted.classState ⟨28⟩).init = .running ⟨0⟩ ∧
    (fuseStarted.classState ⟨29⟩).init = .running ⟨0⟩ ∧
    (match invoke noNative 1 ⟨⟨28⟩, 0⟩ none [] fuseStarted with
      | .panic message _ => message
      | _ => none) = some "boom" := by decide +kernel

theorem findBomb_comesTo :
    Action.ComesTo (initClassWithin (invoke noNative 1) 29 ⟨28⟩) bombClaimed
      (perform (invoke noNative 1) .findClass [.text (some bombName)]) armed := by
  obtain ⟨⟨hname, huntouched, hsuper, hthread⟩, -⟩ := bomb_facts
  have hfind : Guest.findClass (Text.Modified.text bombName) armed =
      .ok ⟨29⟩ (armed.withRegistry armed.registry) := by
    unfold Guest.findClass
    rw [Registry.findClass, Registry.findChars, String.ofList_toList, hname]
  have hclaim : Action.ComesTo (initClassWithin (invoke noNative 1) 29 ⟨28⟩) bombClaimed
      (initClass (invoke noNative 1) ⟨29⟩) (armed.withRegistry armed.registry) := by
    rw [bombClaimed, ← hthread]
    exact comesTo_superclass huntouched hsuper
  exact hclaim.trans ((Initializes.findClass hfind).comesTo _)

theorem fuse_starts :
    Starts (invoke noNative 1) 28 ⟨28⟩ ⟨⟨28⟩, 0⟩ bombClaimed fuseStarted := by
  obtain ⟨-, ⟨-, huntouched, hinitializer, hsuper, hthread, hroot⟩, -⟩ := bomb_facts
  refine ⟨huntouched, hinitializer, bombClaimed.setInit ⟨28⟩ (.running ⟨0⟩), ?_, rfl⟩
  rw [initSuper, hsuper, hthread]
  dsimp only
  rw [initClassWithin_succ, hroot]

theorem fuse_panics :
    ∃ u, invoke noNative 1 ⟨⟨28⟩, 0⟩ none [] fuseStarted = .panic (some "boom") u := by
  obtain ⟨-, -, -, -, hrun⟩ := bomb_facts
  split at hrun
  next message u h => exact ⟨u, by rw [h, hrun]⟩
  next => cases hrun

theorem bomb_is_left_running :
    armed.IsAttached ∧ bombClaimed.states.size = bombClaimed.registry.size ∧
      Concludes noNative 1 1 28 .findClass [.text (some bombName)] ⟨28⟩ ⟨⟨28⟩, 0⟩ armed bombClaimed
        fuseStarted ∧
      ∃ w', findBomb armed = .ok (.plain (.handle .null)) w' ∧
        LeftTo noNative w' ⟨28⟩ ⟨0⟩ ∧ LeftTo noNative w' ⟨29⟩ ⟨0⟩ := by
  have hattached : armed.IsAttached := rfl
  obtain ⟨-, ⟨hsized, -⟩, hfuse, hbomb, -⟩ := bomb_facts
  have hconcludes := initializer_panic_leaves_class_running noNative_keeps hattached
    (.findClass (some bombName)) hsized findBomb_comesTo fuse_starts
  obtain ⟨u, hpanic⟩ := fuse_panics
  obtain ⟨w', hask, hleft⟩ := hconcludes.panicked _ _ hpanic
  exact ⟨hattached, hsized, hconcludes, w', hask, hleft.others _ _ hfuse, hleft.others _ _ hbomb⟩

/-- How far the superclass has come and which throwable is pending after the subclass was asked for,
and whether a second call answers a reference when that throwable has been cleared. -/
def bombTwice : Option (InitState × Option String × Bool) :=
  match findBomb armed with
  | .ok _ w =>
    match findBomb w.cleared with
    | .ok ⟨.handle h, _, _⟩ w' =>
      some ((w.classState ⟨28⟩).init, w.pending.map w.className, (w'.resolve h).isSome)
    | _ => none
  | _ => none

/-- The class is found as if nothing had happened. -/
theorem panicked_initializer_does_not_fail_class :
    bombTwice = some (.running ⟨0⟩, some "java/lang/InternalError", true) ∧
    ¬ ∀ (native : NativeCode Unit) (fuel n depth : Nat) (f : Function) (args : List Argument)
        (c : ClassId) (m : MethodRef) (w v v' u : World Unit) (message : Option String) answer w',
      Action.ComesTo (initClassWithin (invoke native n) (depth + 1) c) v
        (perform (invoke native fuel) f args) w →
      Starts (invoke native n) depth c m v v' →
      invoke native n m none [] v' = .panic message u →
      ask (invoke native fuel) f args w = .ok answer w' →
      (w'.classState c).init = .failed := by
  have hrun : bombTwice = some (.running ⟨0⟩, some "java/lang/InternalError", true) := by
    decide +kernel
  refine ⟨hrun, fun hall => ?_⟩
  obtain ⟨u, hpanic⟩ := fuse_panics
  unfold bombTwice at hrun
  split at hrun
  next answer w' hask =>
    have hfailed := hall _ _ _ _ _ _ _ _ _ _ _ _ _ _ _ findBomb_comesTo fuse_starts hpanic hask
    rw [hfailed] at hrun
    split at hrun
    · cases hrun
    · cases hrun
  next => cases hrun

end Interface

end GuestBoundary
