import GuestBoundary.Proofs.Effects.Shortening
import GuestBoundary.Proofs.Guest.Order

/-!
# Calls of static initializers

Initialization notes each class whose static initializer it is about to call.  A `Ledger` has all
calls of static initializers, whoever makes them: `Guest.watching` stands in front of every method
and enters them, and a strict watch ends the run instead of a call that initialization has not
announced.  While the watch is strict, no initializer is called twice, and none is called but for
initialization (`World.Accounted`), whatever guest code and native code do and however classes end
their initialization.  For initialization itself it makes no difference whether the watch is strict
(`Guest.initClass_watching`).
-/

namespace GuestBoundary

/-- What the embedding program has, and the classes whose static initializers were called, newest
first. -/
structure Ledger (H : Type) where
  own : H
  called : List ClassId

variable {H ε α : Type}

namespace World

/-- The method is the static initializer of its class. -/
def IsInitializer (w : World H) (m : MethodRef) : Prop :=
  w.registry.initializer? m.owner = some m

instance (w : World H) (m : MethodRef) : Decidable (w.IsInitializer m) :=
  inferInstanceAs (Decidable (_ = _))

/-- Initialization has announced a call of the initializer of a class, and it was not made yet. -/
def Awaits (w : World (Ledger H)) (c : ClassId) : Prop := c ∈ w.started ∧ c ∉ w.host.called

instance (w : World (Ledger H)) (c : ClassId) : Decidable (w.Awaits c) :=
  inferInstanceAs (Decidable (_ ∧ _))

/-- Enters a call of the initializer of a class. -/
def noteCall (w : World (Ledger H)) (c : ClassId) : World (Ledger H) :=
  { w with host := { w.host with called := c :: w.host.called } }

end World

namespace Guest

open World

/-- Calls methods as `call` does, and enters the calls of static initializers in the ledger.  A
strict watch ends the run instead of a call that initialization has not announced. -/
def watching (strict : Bool) (call : Invoker (Ledger H)) : Invoker (Ledger H) :=
  fun m receiver args w =>
    if w.IsInitializer m then
      if strict = true ∧ ¬ w.Awaits m.owner then .halt .misuse w
      else call m receiver args (w.noteCall m.owner)
    else call m receiver args w

/-- Calls a method under a watch; calls may be nested `fuel` deep. -/
def invokeWatched (strict : Bool) (native : NativeCode (Ledger H)) : Nat → Invoker (Ledger H)
  | 0 => fun _ _ _ => Action.halt .outOfFuel
  | fuel + 1 => watching strict (invokeWith native (invokeWatched strict native fuel))

section Watching

variable {call : Invoker (Ledger H)} {m : MethodRef} {receiver : Option ObjectRef}
  {args : List Value} {w : World (Ledger H)}

/-- It does not matter whether the watch is strict, unless it has to step in. -/
theorem watching_eq (h : w.IsInitializer m → w.Awaits m.owner) (strict : Bool) :
    watching strict call m receiver args w = watching false call m receiver args w := by
  unfold watching
  split
  case isTrue hm =>
    rw [if_neg fun h' => h'.2 (h hm), if_neg fun h' => Bool.false_ne_true h'.1]
  case isFalse => rfl

theorem watching_strict (hm : w.IsInitializer m) (h : ¬ w.Awaits m.owner) :
    watching true call m receiver args w = .halt .misuse w := by
  rw [watching, if_pos hm, if_pos ⟨rfl, h⟩]

theorem watching_lax (hm : w.IsInitializer m) :
    watching false call m receiver args w = call m receiver args (w.noteCall m.owner) := by
  rw [watching, if_pos hm, if_neg fun h => Bool.false_ne_true h.1]

end Watching

/-- A strict watch only ends runs. -/
theorem shortens_watching {call call' : Invoker (Ledger H)}
    (hcall : CallsRelated (fun a a' => Shortens a a') call call') :
    CallsRelated (fun a a' => Shortens a a') (watching true call) (watching false call') := by
  intro m receiver args w
  unfold watching
  split
  case isTrue =>
    rw [if_neg (fun h : false = true ∧ _ => Bool.false_ne_true h.1)]
    split
    case isTrue => exact .inr ⟨.misuse, w, rfl⟩
    case isFalse => exact hcall m receiver args _
  case isFalse => exact hcall m receiver args w

theorem shortens_invokeWatched {native : NativeCode (Ledger H)} (hnative : NativeShortens native)
    (fuel : Nat) : CallsRelated (fun a a' => Shortens a a') (invokeWatched true native fuel)
      (invokeWatched false native fuel) := by
  induction fuel with
  | zero => exact fun _ _ _ => Shortens.outcomes.same _
  | succ fuel ih => exact shortens_watching (Shortens.invokeWith hnative ih)

end Guest

/-! ## Books -/

namespace World

variable {w w' w'' v : World (Ledger H)} {c : ClassId} {i : InitState}

/-- Each call of an initializer was announced, and none was made twice; nor was any announced twice,
or for a class that is still untouched. -/
structure Accounted (w : World (Ledger H)) : Prop where
  sized : w.states.size = w.registry.size
  known : ∀ c ∈ w.started, c.index < w.registry.size
  touched : ∀ c ∈ w.started, (w.classState c).init ≠ .untouched
  announcedOnce : w.started.Nodup
  calledOnce : w.host.called.Nodup
  announced : w.host.called ⊆ w.started

/-- The books are still in order, and nothing was announced for a class that was not untouched. -/
structure Accounts (w w' : World (Ledger H)) : Prop where
  accounted : w'.Accounted
  registry : w.registry.Extends w'.registry
  touched : ∀ c, (w.classState c).init ≠ .untouched →
    (w'.classState c).init ≠ .untouched ∧ (c ∈ w'.started ↔ c ∈ w.started)

theorem Accounted.accounts (h : w.Accounted) : Accounts w w :=
  ⟨h, .refl _, fun _ hc => ⟨hc, Iff.rfl⟩⟩

theorem Accounts.trans (h : Accounts w w') (h' : Accounts w' w'') : Accounts w w'' where
  accounted := h'.accounted
  registry := h.registry.trans h'.registry
  touched c hc := by
    obtain ⟨hinit, hmem⟩ := h.touched c hc
    obtain ⟨hinit', hmem'⟩ := h'.touched c hinit
    exact ⟨hinit', hmem'.trans hmem⟩

/-- Books that nothing was entered into stay in order, if no class in them becomes untouched
again. -/
theorem Accounted.onward (hw : w.Accounted) (sized : w'.states.size = w'.registry.size)
    (hle : w.registry.size ≤ w'.registry.size)
    (touched : ∀ c ∈ w.started, (w'.classState c).init ≠ .untouched)
    (started : w'.started = w.started) (called : w'.host.called = w.host.called) :
    w'.Accounted where
  sized
  known c hc := Nat.lt_of_lt_of_le (hw.known c (started ▸ hc)) hle
  touched c hc := touched c (started ▸ hc)
  announcedOnce := started ▸ hw.announcedOnce
  calledOnce := called ▸ hw.calledOnce
  announced := by
    rw [called, started]
    exact hw.announced

/-- Most of what runs is not about classes. -/
theorem SameClasses.accounts (h : SameClasses w w') (hhost : w'.host = w.host)
    (hw : w.Accounted) : Accounts w w' where
  accounted := by
    refine hw.onward (h.sized hw.sized) h.registry.size_le (fun c hc => ?_) h.started (by rw [hhost])
    rw [h.init c]
    exact hw.touched c hc
  registry := h.registry
  touched c hc := by
    rw [h.init c, h.started]
    exact ⟨hc, Iff.rfl⟩

/-- A class comes on. -/
theorem Accounted.setInit (h : w.Accounted) (hi : i ≠ .untouched) : Accounts w (w.setInit c i) := by
  have hinit : ∀ d, (w.classState d).init ≠ .untouched →
      ((w.setInit c i).classState d).init ≠ .untouched := by
    intro d hd
    show ((w.setClassState c _).classState d).init ≠ .untouched
    rw [classState_setClassState]
    split
    · exact hi
    · exact hd
  have hsized : (w.setInit c i).states.size = (w.setInit c i).registry.size :=
    (Array.size_setIfInBounds ..).trans h.sized
  exact ⟨h.onward hsized (Nat.le_refl _) (fun d hd => hinit d (h.touched d hd)) rfl rfl, .refl _,
    fun d hd => ⟨hinit d hd, Iff.rfl⟩⟩

/-- A class is defined. -/
theorem Accounted.defineOrKeep (h : w.Accounted) (spec : ClassSpec) :
    (w.defineOrKeep spec).Accounted := by
  rcases w.defineOrKeep_cases spec with heq | ⟨k, s, heq, -, -⟩ <;> rw [heq]
  · exact h
  · have hle : w.registry.size ≤ (w.add k s).registry.size := by
      rw [size_registry_add]
      exact Nat.le_succ _
    refine h.onward (sized_add h.sized) hle (fun c hc => ?_) rfl rfl
    rw [classState_add_of_lt h.sized (h.known c hc)]
    exact h.touched c hc

/-- Initialization announces the initializer of a class that it has claimed. -/
theorem Accounted.noteStart (h : w.Accounted) (hinit : (w.classState c).init ≠ .untouched)
    (hknown : c.index < w.registry.size) (hc : c ∉ w.started) : (w.noteStart c).Accounted where
  sized := h.sized
  known := List.forall_mem_cons.2 ⟨hknown, h.known⟩
  touched := List.forall_mem_cons.2 ⟨hinit, h.touched⟩
  announcedOnce := List.nodup_cons.2 ⟨hc, h.announcedOnce⟩
  calledOnce := h.calledOnce
  announced := List.subset_cons_of_subset c h.announced

/-- The initializer is called. -/
theorem Accounted.noteCall (h : w.Accounted) (hc : w.Awaits c) : Accounts w (w.noteCall c) where
  accounted :=
    { h with
      calledOnce := List.nodup_cons.2 ⟨hc.2, h.calledOnce⟩
      announced := List.cons_subset.2 ⟨hc.1, h.announced⟩ }
  registry := .refl _
  touched _ hd := ⟨hd, Iff.rfl⟩

/-- A class that is claimed from being untouched is news to the books. -/
theorem Accounts.of_untouched (h : Accounts (w.setInit c i) v) (hc : (w.classState c).init = .untouched)
    (hw : w.Accounted) (hi : i ≠ .untouched) :
    (v.classState c).init ≠ .untouched ∧ c.index < v.registry.size ∧ c ∉ v.started := by
  have hlt : c.index < w.states.size := lt_size_of_init_ne (by rw [hc]; nofun)
  obtain ⟨hinit, hmem⟩ := h.touched c (by rwa [init_setInit_self hlt])
  refine ⟨hinit, Nat.lt_of_lt_of_le (hw.sized ▸ hlt) h.registry.size_le, fun hv => ?_⟩
  exact hw.touched c (hmem.1 hv) hc

/-- The books stay in order. -/
def KeepsBooks (w w' : World (Ledger H)) : Prop := w.Accounted → Accounts w w'

theorem keepsBooks_composable : Composable (KeepsBooks (H := H)) where
  refl _ hw := hw.accounts
  trans h h' hw := (h hw).trans (h' (h hw).accounted)

theorem keepsBooks_of_leaves {a : Action (Ledger H) ε α}
    (ha : ∀ w, w.Accounted → (a w).Leaves (Accounts w)) : Keeps KeepsBooks a := by
  intro w
  by_cases hw : w.Accounted
  · exact (ha w hw).mono fun _ h _ => h
  · cases a w with
    | halt reason v => trivial
    | _ => exact fun h => absurd h hw

theorem Accounted.leaves {a : Action (Ledger H) ε α} (ha : Keeps KeepsBooks a) (hw : w.Accounted) :
    (a w).Leaves (Accounts w) := (ha w).mono fun _ h => h hw

end World

namespace Guest

open World

variable {call : Invoker (Ledger H)} {c : ClassId} {depth : Nat} {w v : World (Ledger H)}

/-! ## Initialization -/

section Books

/-- A superclass is initialized before its subclass announces anything. -/
theorem accounts_initSuper
    (hsuper : ∀ s v, v.Accounted → (initClassWithin call depth s v).Leaves (Accounts v))
    (r : Registry) (hv : v.Accounted) : (initSuper call r depth c v).Leaves (Accounts v) := by
  unfold initSuper
  cases (r.get c).superclass with
  | some s => exact hsuper s v hv
  | none => exact hv.accounts

/-- Books are kept by initialization if they are by calls. -/
theorem accounts_initClassWithin (hcall : CallsKeep KeepsBooks call) (hw : w.Accounted) :
    (initClassWithin call depth c w).Leaves (Accounts w) := by
  induction depth generalizing c w with
  | zero => exact hw.accounts
  | succ depth ih =>
    rw [initClassWithin_succ]
    cases hinit : (w.classState c).init with
    | done => exact hw.accounts
    | running t =>
      dsimp only
      split
      · exact hw.accounts
      · trivial
    | failed => exact (w.sameSide_materialize _).classes.accounts (w.sameSide_materialize _).host hw
    | untouched =>
      have hclaim : Accounts w (w.setInit c (.running w.thread.id)) := hw.setInit nofun
      have hrun : (runInitializers call w.registry depth c
          (w.setInit c (.running w.thread.id))).Leaves (Accounts w) := by
        rw [runInitializers_eq]
        refine (accounts_initSuper (fun s v hv => ih hv) w.registry hclaim.accounted).bind
          (fun v h => hclaim.trans h) fun _ v _ h => ?_
        obtain ⟨hclaimed, hknown, hnew⟩ := h.of_untouched hinit hw nofun
        unfold runInitializer
        cases w.registry.initializer? c with
        | none => exact hclaim.trans h
        | some m =>
          -- Of a class that was untouched the books need not say that nothing was announced.
          have hstarted : Accounts w (v.noteStart c) := by
            refine ⟨h.accounted.noteStart hclaimed hknown hnew, h.registry, fun d hd => ?_⟩
            have hdc : d ≠ c := fun heq => hd (heq ▸ hinit)
            obtain ⟨hd', hmem⟩ := (hclaim.trans h).touched d hd
            refine ⟨hd', List.mem_cons.trans (Iff.trans ?_ hmem)⟩
            exact or_iff_right hdc
          have hkeeps : Keeps KeepsBooks (discard (call m none [])) :=
            .discard keepsBooks_composable (hcall m none [])
          exact (hstarted.accounted.leaves hkeeps).mono fun v' => hstarted.trans
      refine Outcome.Leaves.bind (Keeps.result_at hrun) (fun _ => id) fun result v _ h => ?_
      cases result with
      | ok _ => exact h.trans (h.accounted.setInit nofun)
      | error thrown => exact h.trans (h.accounted.setInit nofun)

end Books

/-- What runs on its own keeps the books. -/
theorem keepsBooks_neutral : AttachmentNeutral (KeepsBooks (H := H)) where
  toComposable := keepsBooks_composable
  sameSide h hw := h.classes.accounts h.host hw
  initClass hcall _ := keepsBooks_of_leaves fun _ hw => accounts_initClassWithin hcall hw
  withBridge hb _ := SameClasses.accounts (sameClasses_withBridge hb _) rfl
  setAttachment _ := SameClasses.accounts (.of_eq rfl) rfl

theorem keepsBooks_inCall {w w' : World (Ledger H)}
    (h : KeepsBooks (w.setDepth (w.thread.depth + 1)) w') :
    KeepsBooks w (w'.setDepth (w'.thread.depth - 1)) := by
  intro hw
  have hdepth : ∀ (v : World (Ledger H)) depth, v.Accounted → Accounts v (v.setDepth depth) :=
    fun v depth => SameClasses.accounts (.of_eq rfl) rfl
  have hin := hdepth w (w.thread.depth + 1) hw
  have hbody := h hin.accounted
  exact (hin.trans hbody).trans (hdepth w' _ hbody.accounted)

/-- A strict watch lets only those calls of initializers through that keep the books. -/
theorem keepsBooks_watching (hcall : CallsKeep KeepsBooks call) :
    CallsKeep KeepsBooks (watching true call) := by
  intro m receiver args
  refine keepsBooks_of_leaves fun w hw => ?_
  unfold watching
  split
  case isTrue =>
    split
    case isTrue => trivial
    case isFalse h =>
      have hawaits : w.Awaits m.owner := by simpa using h
      have hnoted := hw.noteCall hawaits
      exact (hnoted.accounted.leaves (hcall m receiver args)).mono fun v => hnoted.trans
  case isFalse => exact hw.leaves (hcall m receiver args)

/-- Whatever is called under a strict watch keeps the books, if native code does. -/
theorem keepsBooks_invokeWatched {native : NativeCode (Ledger H)}
    (hnative : NativeKeeps KeepsBooks native) (fuel : Nat) :
    CallsKeep KeepsBooks (invokeWatched true native fuel) := by
  have n := keepsBooks_neutral (H := H)
  have c : CallNeutral (KeepsBooks (H := H)) := ⟨n.toGuestNeutral, keepsBooks_inCall⟩
  induction fuel with
  | zero => exact fun _ _ _ => .halt _
  | succ fuel ih =>
    exact keepsBooks_watching fun m receiver args =>
      c.invokeWith receiver args ih (n.nativeInvoke hnative ih) m

end Guest

/-! ## Whole runs -/

namespace World

variable {native : NativeCode (Ledger H)} {w w' : World (Ledger H)}

/-- A run begins with empty books. -/
theorem accounted_start (maxCallDepth : Nat) (memory : HostMemory) (own : H) :
    (start maxCallDepth memory (⟨own, []⟩ : Ledger H)).Accounted := by
  have hbare : (bare maxCallDepth memory (⟨own, []⟩ : Ledger H)).Accounted :=
    ⟨rfl, nofun, nofun, List.nodup_nil, List.nodup_nil, List.nil_subset _⟩
  exact List.foldlRecOn firstClasses World.defineOrKeep hbare fun _ hw spec _ =>
    hw.defineOrKeep spec

/-- What the embedding program does is not about classes and initializers, such as going on with
another thread. -/
def SameBooks (w w' : World (Ledger H)) : Prop :=
  w'.states = w.states ∧ w'.registry = w.registry ∧ w'.started = w.started ∧
    w'.host.called = w.host.called

theorem SameBooks.accounted (h : SameBooks w w') (hw : w.Accounted) : w'.Accounted := by
  obtain ⟨hstates, hregistry, hstarted, hcalled⟩ := h
  refine hw.onward ?_ (Nat.le_of_eq (by rw [hregistry])) (fun c hc => ?_) hstarted hcalled
  · rw [hstates, hregistry, hw.sized]
  · rw [classState, hstates]
    exact hw.touched c hc

/-- Whatever happens under a strict watch, the books stay in order. -/
theorem Steps.accounted (hnative : NativeKeeps KeepsBooks native)
    (h : Steps (Guest.invokeWatched true native) SameBooks w w') (hw : w.Accounted) :
    w'.Accounted := by
  -- A class that is defined may be untouched, so only the books themselves are kept here.
  have p : Composable fun w w' : World (Ledger H) => w.Accounted → w'.Accounted :=
    ⟨fun _ hw => hw, fun h h' hw => h' (h hw)⟩
  exact Steps.keeps Guest.keepsBooks_neutral (Guest.keepsBooks_invokeWatched hnative) p
    (fun h hw => (h hw).accounted) (fun _ spec hw => hw.defineOrKeep spec)
    (fun h hw => h.accounted hw) h hw

end World

namespace Guest

open World

variable {call : Invoker (Ledger H)} {c : ClassId} {depth : Nat} {w v : World (Ledger H)}

/-! ## Initialization under a watch -/

section Watched

variable (hcall : CallsKeep KeepsBooks (watching true call))
include hcall

/-- Initialization announces the calls that it makes. -/
theorem initClassWithin_watching (hw : w.Accounted) :
    initClassWithin (watching true call) depth c w =
      initClassWithin (watching false call) depth c w := by
  induction depth generalizing c w with
  | zero => rfl
  | succ depth ih =>
    rw [initClassWithin_succ, initClassWithin_succ]
    cases hinit : (w.classState c).init with
    | done => rfl
    | running t => rfl
    | failed => rfl
    | untouched =>
      have hclaim : Accounts w (w.setInit c (.running w.thread.id)) := hw.setInit nofun
      refine Action.bind_congr (Action.result_congr ?_)
      rw [runInitializers_eq, runInitializers_eq]
      have hsuper : initSuper (watching true call) w.registry depth c
            (w.setInit c (.running w.thread.id)) =
          initSuper (watching false call) w.registry depth c
            (w.setInit c (.running w.thread.id)) := by
        unfold initSuper
        cases (w.registry.get c).superclass with
        | some s => exact ih hclaim.accounted
        | none => rfl
      refine Eq.trans (Action.bind_congr_ok fun _ v hv => ?_) (Action.bind_congr hsuper)
      have haccounts : (initSuper (watching true call) w.registry depth c
          (w.setInit c (.running w.thread.id))).Leaves
            (Accounts (w.setInit c (.running w.thread.id))) :=
        accounts_initSuper (fun s v hv => accounts_initClassWithin hcall hv) w.registry
          hclaim.accounted
      rw [hv] at haccounts
      obtain ⟨-, -, hnew⟩ := haccounts.of_untouched hinit hw nofun
      unfold runInitializer
      cases hm : w.registry.initializer? c with
      | none => rfl
      | some m =>
        have howner : m.owner = c := by
          obtain ⟨i, -, rfl⟩ := Option.map_eq_some_iff.1 hm
          rfl
        have hawaits : (v.noteStart c).Awaits m.owner := by
          rw [howner]
          exact ⟨List.mem_cons_self, fun hcalled => hnew (haccounts.accounted.announced hcalled)⟩
        exact Action.bind_congr (watching_eq (fun _ => hawaits) true)

theorem initClass_watching (hw : w.Accounted) :
    initClass (watching true call) c w = initClass (watching false call) c w :=
  initClassWithin_watching hcall hw

theorem allocate_watching (hw : w.Accounted) :
    allocate (watching true call) c w = allocate (watching false call) c w := by
  rw [allocate_eq, allocate_eq]
  split
  · exact Action.bind_congr (initClass_watching hcall hw)
  · rfl

end Watched

end Guest

end GuestBoundary
