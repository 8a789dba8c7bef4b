import GuestBoundary.Proofs.Effects.Interface
import GuestBoundary.Proofs.Exceptions.Throwables
import GuestBoundary.Proofs.Guest.Initialization
import GuestBoundary.Proofs.Heap.Monitors
import GuestBoundary.Proofs.Interface.Outcomes

/-!
# What is pending while something runs

Between two calls of the interface that raise, a thread goes on calmly (`World.Calm`): whatever runs
leaves pending what was pending, or nothing.  An action is `Conducted` if it does that however it
comes to its end, throws nothing but what it may throw, and ends the run for a reason that native
code gave it (`Halt.Excused`).  Guest code conducts itself if the calls that it makes do, and so do
the functions of the interface that have `EntryRules`.
-/

namespace GuestBoundary

variable {H ε δ α β : Type}

namespace World

variable {w w' w'' : World H}

/-! ## States -/

/-- What threads have that are attached to the bridge. -/
def attached (w : World H) : List Attachment := w.allThreads.filterMap Thread.attachment

theorem mem_attached {a : Attachment} :
    a ∈ w.attached ↔ w.attachment = some a ∨ ∃ t ∈ w.waiting, t.attachment = some a := by
  rw [attached, allThreads, List.mem_filterMap, List.exists_mem_cons_iff]
  rfl

/-- Whatever is pending on a thread is throwable. -/
def PendingThrowable (w : World H) : Prop :=
  ∀ a ∈ w.attached, ∀ o, a.pending.slot = some o → w.IsThrowable o

/-- No more calls are in progress than may be, attached threads have a bridge, and there are classes
for what is thrown.  If the run is `strict`, what is pending is throwable. -/
structure Sound (strict : Bool) (w : World H) : Prop where
  shallow : w.thread.depth ≤ w.maxCallDepth
  bridged : ∀ a ∈ w.attached, w.bridge.isSome = true
  throwables : w.registry.HasThrowables
  clean : strict = true → w.PendingThrowable

/-- Calls may be nested `n` deep before too many are in progress. -/
structure Prepared (strict : Bool) (n : Nat) (w : World H) : Prop extends Sound strict w where
  room : w.maxCallDepth < w.thread.depth + n

/-- The thread has what other threads may wait for. -/
def Has (w : World H) (t : ThreadId) : Awaited → Prop
  | .monitor o => (w.object o).monitor.owner? = some t
  | .initialization c => (w.classState c).init = .running t

/-- Another thread than the running one has it. -/
def Withholds (w : World H) (x : Awaited) : Prop := ∃ t, t ≠ w.thread.id ∧ w.Has t x

theorem withholds_monitor {o : ObjectRef} (h : (w.object o).monitor.enter? w.thread.id = none) :
    w.Withholds (.monitor o) := by
  obtain ⟨-, t, ht, howner⟩ | ⟨-, hsome⟩ | ⟨-, hsome⟩ :=
    (w.object o).monitor.enter?_cases w.thread.id
  · exact ⟨t, ht, howner⟩
  all_goals
    rw [h] at hsome
    cases hsome

/-! ## Going on -/

/-- The running thread goes on: it has as many calls in progress and stays attached, and classes and
objects stay what they are. -/
structure Continues (w w' : World H) : Prop where
  id : w'.thread.id = w.thread.id
  depth : w'.thread.depth = w.thread.depth
  limit : w'.maxCallDepth = w.maxCallDepth
  waiting : w'.waiting = w.waiting
  attached : ∀ a, w.attachment = some a → ∃ a', w'.attachment = some a' ∧ a'.serial = a.serial
  /-- A thread that gets attached has a bridge. -/
  attaches : w.attachment = none → w'.attachment.isSome = true → w'.bridge.isSome = true
  bridged : w.bridge.isSome = true → w'.bridge.isSome = true
  registry : w.registry.Extends w'.registry
  heap : w.heap.Grows w'.heap

/-- The running thread goes on, and what is pending is what was, or nothing. -/
structure Calm (w w' : World H) : Prop extends Continues w w' where
  pending : w'.pending = w.pending ∨ w'.pending = none

theorem Continues.of_thread (thread : w'.thread = w.thread)
    (limit : w'.maxCallDepth = w.maxCallDepth) (waiting : w'.waiting = w.waiting)
    (bridge : w.bridge.isSome = true → w'.bridge.isSome = true)
    (registry : w.registry.Extends w'.registry) (heap : w.heap.Grows w'.heap) :
    Continues w w' where
  id := by rw [thread]
  depth := by rw [thread]
  limit := limit
  waiting := waiting
  attached a ha := ⟨a, (congrArg Thread.attachment thread).trans ha, rfl⟩
  attaches ha ha' := by
    rw [attachment, thread] at ha'
    rw [attachment] at ha
    rw [ha] at ha'
    cases ha'
  bridged := bridge
  registry := registry
  heap := heap

theorem Calm.of_thread (thread : w'.thread = w.thread) (limit : w'.maxCallDepth = w.maxCallDepth)
    (waiting : w'.waiting = w.waiting) (bridge : w.bridge.isSome = true → w'.bridge.isSome = true)
    (registry : w.registry.Extends w'.registry) (heap : w.heap.Grows w'.heap) : Calm w w' :=
  ⟨.of_thread thread limit waiting bridge registry heap, .inl (by
    rw [World.pending, World.pending, attachment, attachment, thread])⟩

/-- Nothing but classes and objects changes. -/
theorem Calm.of_eq (h : w'.outerSide = w.outerSide) (registry : w.registry.Extends w'.registry)
    (heap : w.heap.Grows w'.heap) : Calm w w' := by
  obtain ⟨thread, h⟩ := Prod.mk.inj h
  obtain ⟨waiting, h⟩ := Prod.mk.inj h
  obtain ⟨-, h⟩ := Prod.mk.inj h
  obtain ⟨limit, bridge⟩ := Prod.mk.inj h
  exact .of_thread thread limit waiting (fun hb => bridge ▸ hb) registry heap

theorem SameSide.calm (h : SameSide w w') : Calm w w' :=
  .of_thread h.thread h.limit h.waiting (fun hb => h.bridge ▸ hb) h.classes.registry h.heap.toGrows

theorem Calm.refl (w : World H) : Calm w w := (SameSide.refl w).calm

theorem Continues.trans (h : Continues w w') (h' : Continues w' w'') : Continues w w'' where
  id := h'.id.trans h.id
  depth := h'.depth.trans h.depth
  limit := h'.limit.trans h.limit
  waiting := h'.waiting.trans h.waiting
  attached a ha := by
    obtain ⟨a', ha', hs⟩ := h.attached a ha
    obtain ⟨a'', ha'', hs'⟩ := h'.attached a' ha'
    exact ⟨a'', ha'', hs'.trans hs⟩
  attaches ha ha'' := by
    cases ha' : w'.attachment with
    | none => exact h'.attaches ha' ha''
    | some a => exact h'.bridged (h.attaches ha (by rw [ha']; rfl))
  bridged hb := h'.bridged (h.bridged hb)
  registry := h.registry.trans h'.registry
  heap := h.heap.trans h'.heap

theorem Calm.trans (h : Calm w w') (h' : Calm w' w'') : Calm w w'' where
  toContinues := h.toContinues.trans h'.toContinues
  pending := by
    rcases h'.pending with hp | hp
    · rw [hp]
      exact h.pending
    · exact .inr hp

theorem Continues.isSome (h : Continues w w') (ha : w.attachment.isSome = true) :
    w'.attachment.isSome = true := by
  obtain ⟨a, ha⟩ := Option.isSome_iff_exists.1 ha
  obtain ⟨a', ha', -⟩ := h.attached a ha
  rw [ha']
  rfl

theorem Continues.isThrowable (h : Continues w w') (throwables : w.registry.HasThrowables)
    {o : ObjectRef} (ho : w.IsThrowable o) : w'.IsThrowable o :=
  ho.mono throwables h.registry h.heap

/-- The attachment of the running thread is changed. -/
theorem Continues.of_attachment {a a' : Attachment} (ha : w.attachment = some a)
    (hserial : a'.serial = a.serial) : Continues w (w.setAttachment (some a')) where
  id := rfl
  depth := rfl
  limit := rfl
  waiting := rfl
  attached b hb := ⟨a', rfl, by
    rw [ha] at hb
    cases hb
    exact hserial⟩
  attaches hnone := nomatch ha.symm.trans hnone
  bridged := fun h => h
  registry := .refl _
  heap := .refl _

theorem Calm.of_attachment {a a' : Attachment} (ha : w.attachment = some a)
    (hserial : a'.serial = a.serial)
    (hpending : a'.pending.slot = a.pending.slot ∨ a'.pending.slot = none) :
    Calm w (w.setAttachment (some a')) := by
  refine ⟨.of_attachment ha hserial, ?_⟩
  rw [World.pending, World.pending, ha]
  exact hpending

/-- Whatever becomes pending, the thread goes on. -/
theorem Continues.of_updatePending (w : World H) (f : Pending ObjectRef → Pending ObjectRef) :
    Continues w (w.updatePending f) := by
  cases ha : w.attachment with
  | none =>
    have hsame : w.updatePending f = w := by
      rw [updatePending, ha]
      show { w with thread := { w.thread with attachment := none } } = w
      rw [← ha]
      rfl
    rw [hsame]
    exact (Calm.refl w).toContinues
  | some a =>
    rw [updatePending, ha]
    exact .of_attachment ha rfl

/-! ## Soundness is kept -/

variable {strict : Bool} {n : Nat}

/-- Whether the state is still sound is a question of what is pending on the running thread. -/
theorem Sound.continues (hw : Sound strict w) (h : Continues w w')
    (hpending : strict = true → ∀ o, w'.pending = some o → w'.IsThrowable o) : Sound strict w' where
  shallow := by
    rw [h.depth, h.limit]
    exact hw.shallow
  bridged a ha := by
    rcases mem_attached.1 ha with ha | ⟨t, ht, ha⟩
    · cases hbefore : w.attachment with
      | none => exact h.attaches hbefore (by rw [ha]; rfl)
      | some a => exact h.bridged (hw.bridged a (mem_attached.2 (.inl hbefore)))
    · rw [h.waiting] at ht
      exact h.bridged (hw.bridged a (mem_attached.2 (.inr ⟨t, ht, ha⟩)))
  throwables := hw.throwables.mono h.registry
  clean hstrict a ha o ho := by
    rcases mem_attached.1 ha with ha | ⟨t, ht, ha⟩
    · exact hpending hstrict o (by rw [World.pending, ha]; exact ho)
    · rw [h.waiting] at ht
      exact h.isThrowable hw.throwables
        (hw.clean hstrict a (mem_attached.2 (.inr ⟨t, ht, ha⟩)) o ho)

/-- What is pending on the running thread. -/
theorem Sound.isThrowable_pending (hw : Sound strict w) (hstrict : strict = true) {o : ObjectRef}
    (ho : w.pending = some o) : w.IsThrowable o := by
  obtain ⟨a, ha, ho⟩ := Option.bind_eq_some_iff.1 ho
  exact hw.clean hstrict a (mem_attached.2 (.inl ha)) o ho

theorem Sound.calm (hw : Sound strict w) (h : Calm w w') : Sound strict w' := by
  refine hw.continues h.toContinues fun hstrict o ho => ?_
  rcases h.pending with hp | hp
  · rw [hp] at ho
    exact h.isThrowable hw.throwables (hw.isThrowable_pending hstrict ho)
  · rw [hp] at ho
    cases ho

/-- Something throwable becomes pending. -/
theorem Sound.setPending (hw : Sound strict w) {o : ObjectRef}
    (ho : strict = true → w.IsThrowable o) : Sound strict (w.setPending o) := by
  refine hw.continues (.of_updatePending w _) fun hstrict o' ho' => ?_
  cases ha : w.attachment with
  | none =>
    rw [World.setPending, updatePending, ha] at ho'
    cases ho'
  | some a =>
    rw [pending_setPending (by rw [ha]; rfl)] at ho'
    cases ho'
    exact ho hstrict

theorem Prepared.continues (hw : Prepared strict n w) (h : Continues w w') (hs : Sound strict w') :
    Prepared strict n w' :=
  ⟨hs, by
    rw [h.depth, h.limit]
    exact hw.room⟩

theorem Prepared.calm (hw : Prepared strict n w) (h : Calm w w') : Prepared strict n w' :=
  hw.continues h.toContinues (hw.toSound.calm h)

/-- An attached thread has a bridge. -/
theorem Sound.bridge_ne_none (hw : Sound strict w) (ha : w.attachment.isSome = true) :
    w.bridge ≠ none := by
  intro hb
  obtain ⟨a, ha⟩ := Option.isSome_iff_exists.1 ha
  have := hw.bridged a (mem_attached.2 (.inl ha))
  rw [hb] at this
  cases this

end World

/-- Why a run may be over: native code broke a rule, the running thread waits for what another one
has, or guest code threw what it may not throw in a strict run. -/
def Halt.Excused (strict : Bool) (w : World H) : Halt → Prop
  | .violation _ => True
  | .deadlock x => w.Withholds x
  | .misuse => strict = true
  | .outOfFuel => False

/-! ## Conduct -/

/-- The running thread went on calmly from a state, and what it threw may be thrown; or the run is
over for a reason. -/
def Outcome.Conducted (strict : Bool) (thrown : ε → World H → Prop) (w : World H) :
    Outcome H ε α → Prop
  | .ok _ w' | .panic _ w' => w.Calm w'
  | .error e w' => w.Calm w' ∧ thrown e w'
  | .halt r w' => r.Excused strict w'

namespace Outcome.Conducted

variable {strict : Bool} {thrown : ε → World H → Prop} {thrown' : δ → World H → Prop}
  {w w' : World H}

/-- What came before was calm, too. -/
theorem after {o : Outcome H ε α} (hw : w.Calm w') (h : o.Conducted strict thrown w') :
    o.Conducted strict thrown w := by
  cases o with
  | ok x w'' => exact hw.trans h
  | error e w'' => exact ⟨hw.trans h.1, h.2⟩
  | panic m w'' => exact World.Calm.trans hw h
  | halt r w'' => exact h

/-- Two actions in a row, both judged from one state. -/
theorem bind_from {a : Action H ε α} {f : α → Action H ε β} {v : World H}
    (ha : (a v).Conducted strict thrown w)
    (hf : ∀ x w', a v = .ok x w' → w.Calm w' → (f x w').Conducted strict thrown w) :
    ((a >>= f) v).Conducted strict thrown w := by
  cases hr : a v with
  | ok x w' =>
    rw [hr] at ha
    rw [Action.bind_ok hr]
    exact hf x w' hr ha
  | error e w' =>
    rw [hr] at ha
    rwa [Action.bind_error hr]
  | panic m w' =>
    rw [hr] at ha
    rwa [Action.bind_panic hr]
  | halt r w' =>
    rw [hr] at ha
    rwa [Action.bind_halt hr]

theorem bind {a : Action H ε α} {f : α → Action H ε β} (ha : (a w).Conducted strict thrown w)
    (hf : ∀ x w', a w = .ok x w' → w.Calm w' → (f x w').Conducted strict thrown w') :
    ((a >>= f) w).Conducted strict thrown w :=
  bind_from ha fun x w' hr hcalm => (hf x w' hr hcalm).after hcalm

theorem result {a : Action H ε α} (ha : (a w).Conducted strict thrown w) :
    (a.result w : Outcome H δ _).Conducted strict thrown' w := by
  unfold Action.result
  cases hr : a w with
  | ok x w' =>
    rw [hr] at ha
    exact ha
  | error e w' =>
    rw [hr] at ha
    exact ha.1
  | panic m w' =>
    rw [hr] at ha
    exact ha
  | halt r w' =>
    rw [hr] at ha
    exact ha

theorem result_bind {a : Action H ε α} {f : Except ε α → Action H δ β}
    (ha : (a w).Conducted strict thrown w)
    (hok : ∀ x w', w.Calm w' → (f (.ok x) w').Conducted strict thrown' w')
    (herror : ∀ e w', w.Calm w' → thrown e w' → (f (.error e) w').Conducted strict thrown' w') :
    ((a.result >>= f) w).Conducted strict thrown' w := by
  cases hr : a w with
  | ok x w' =>
    rw [hr] at ha
    rw [Action.bind_ok (Action.result_ok hr)]
    exact (hok x w' ha).after ha
  | error e w' =>
    rw [hr] at ha
    rw [Action.bind_ok (Action.result_error hr)]
    exact (herror e w' ha.1 ha.2).after ha.1
  | panic m w' =>
    rw [hr] at ha
    rw [Action.bind_panic (Action.result_panic hr)]
    exact ha
  | halt r w' =>
    rw [hr] at ha
    rw [Action.bind_halt (Action.result_halt hr)]
    exact ha

/-- Errors are renamed, or it does not matter any more what they are. -/
theorem mapError {a : Action H ε α} {f : ε → δ} (ha : (a w).Conducted strict thrown w)
    (h : ∀ e w', thrown e w' → thrown' (f e) w') : (a.mapError f w).Conducted strict thrown' w := by
  unfold Action.mapError
  cases hr : a w with
  | ok x w' =>
    rw [hr] at ha
    exact ha
  | error e w' =>
    rw [hr] at ha
    exact ⟨ha.1, h e w' ha.2⟩
  | panic m w' =>
    rw [hr] at ha
    exact ha
  | halt r w' =>
    rw [hr] at ha
    exact ha

/-- A change of the state around an action. -/
theorem andFinally {a : Action H ε α} {f : World H → World H} {v : World H}
    (ha : (a v).Conducted strict thrown v) (hf : ∀ w', v.Calm w' → w.Calm (f w'))
    (hthrown : ∀ e w', thrown e w' → thrown e (f w')) :
    (a.andFinally f v).Conducted strict thrown w := by
  unfold Action.andFinally
  cases hr : a v with
  | ok x w' =>
    rw [hr] at ha
    exact hf w' ha
  | error e w' =>
    rw [hr] at ha
    exact ⟨hf w' ha.1, hthrown e w' ha.2⟩
  | panic m w' =>
    rw [hr] at ha
    exact hf w' ha
  | halt r w' =>
    rw [hr] at ha
    exact ha

theorem holding {a : Action H ε α} {objects : List ObjectRef}
    (ha : (a { w with held := objects ++ w.held }).Conducted strict thrown
      { w with held := objects ++ w.held })
    (hthrown : ∀ e w' held, thrown e w' → thrown e { w' with held }) :
    (Action.holding objects a w).Conducted strict thrown w := by
  have hbefore : w.Calm { w with held := objects ++ w.held } := .of_eq rfl (.refl _) (.refl _)
  refine ha.andFinally (fun w' h => ?_) fun e w' h => hthrown e w' _ h
  exact (hbefore.trans h).trans (.of_eq rfl (.refl _) (.refl _))

end Outcome.Conducted

/-! ## Guest code -/

namespace Guest

open World Outcome

variable {strict checked : Bool} {n : Nat} {call : Invoker H}

/-- What guest code may throw: only what is throwable, if that is `checked`. -/
def MayThrow (checked : Bool) (o : ObjectRef) (w : World H) : Prop :=
  checked = true → w.IsThrowable o

/-- The action is conducted wherever calls may be nested `n` deep. -/
def Conducts (strict checked : Bool) (n : Nat) (a : Guest H α) : Prop :=
  ∀ w, w.Prepared strict n → (a w).Conducted strict (MayThrow checked) w

/-- So is every call. -/
def CallsConduct (strict checked : Bool) (n : Nat) (call : Invoker H) : Prop :=
  CallsRelated (fun a _ => Conducts strict checked n a) call call

namespace Conducts

theorem plain {a : Guest H α} (h : Plain a) : Conducts strict checked n a := by
  intro w hw
  have := h w
  cases hr : a w with
  | ok x w' =>
    rw [hr] at this
    cases this with
    | ok x same => exact same.calm
  | error o w' =>
    rw [hr] at this
    cases this with
    | thrown f =>
      exact ⟨(w.sameSide_materialize f).calm, fun _ => isThrowable_materialize hw.throwables f⟩
  | panic m w' =>
    rw [hr] at this
    cases this
  | halt r w' =>
    rw [hr] at this
    cases this

theorem bind {a : Guest H α} {f : α → Guest H β} (ha : Conducts strict checked n a)
    (hf : ∀ x, Conducts strict checked n (f x)) : Conducts strict checked n (a >>= f) :=
  fun w hw => (ha w hw).bind fun x w' _ hcalm => hf x w' (hw.calm hcalm)

theorem holding {a : Guest H α} (objects : List ObjectRef) (ha : Conducts strict checked n a) :
    Conducts strict checked n (Action.holding objects a) := fun _ hw =>
  Conducted.holding (ha _ (hw.calm (.of_eq rfl (.refl _) (.refl _)))) fun _ _ _ h => h

theorem update {f : World H → World H} (h : ∀ w, World.Calm w (f w)) :
    Conducts strict checked n (Action.update f : Guest H Unit) := fun w _ => h w

/-- What is checked may also go unchecked. -/
theorem unchecked {a : Guest H α} (ha : Conducts strict checked n a) :
    Conducts strict false n a := by
  intro w hw
  have := ha w hw
  cases hr : a w with
  | ok x w' =>
    rw [hr] at this
    exact this
  | error o w' =>
    rw [hr] at this
    exact ⟨this.1, nofun⟩
  | panic m w' =>
    rw [hr] at this
    exact this
  | halt r w' =>
    rw [hr] at this
    exact this

/-- One more call takes the place of one that may be nested. -/
theorem inCall {a : Guest H α} {w : World H} (hw : w.Prepared strict (n + 1))
    (hdepth : w.thread.depth < w.maxCallDepth) (ha : Conducts strict checked n a) :
    (Guest.inCall a w).Conducted strict (MayThrow checked) w := by
  have hv : (w.setDepth (w.thread.depth + 1)).Prepared strict n := by
    refine ⟨⟨hdepth, hw.bridged, hw.throwables, hw.clean⟩, ?_⟩
    have := hw.room
    show w.maxCallDepth < w.thread.depth + 1 + n
    omega
  have hafter : ∀ w', (w.setDepth (w.thread.depth + 1)).Calm w' →
      w.Calm (w'.setDepth (w'.thread.depth - 1)) := fun w' h => {
    id := h.id
    depth := congrArg (· - 1) h.depth
    limit := h.limit
    waiting := h.waiting
    attached := h.attached
    attaches := h.attaches
    bridged := h.bridged
    registry := h.registry
    heap := h.heap
    pending := h.pending }
  exact (ha _ hv).andFinally hafter fun _ _ h => h

end Conducts

theorem CallsConduct.unchecked (h : CallsConduct strict checked n call) :
    CallsConduct strict false n call := fun m receiver args => (h m receiver args).unchecked

/-! ### Initialization -/

section Initialization

variable (hcall : CallsConduct strict checked n call)
include hcall

theorem conducts_runInitializer (r : Registry) (c : ClassId) :
    Conducts strict checked n (runInitializer call r c) := by
  unfold runInitializer
  cases r.initializer? c with
  | none => exact .plain (.pure ())
  | some m =>
    refine .bind (.update fun w => .of_eq rfl (.refl _) (.refl _)) fun _ => ?_
    exact (hcall m none []).bind fun _ => .plain (.pure ())

theorem conducts_initClassWithin (depth : Nat) (c : ClassId) :
    Conducts strict checked n (initClassWithin call depth c) := by
  induction depth generalizing c with
  | zero => exact .plain (.pure ())
  | succ depth ih =>
    have hrun : ∀ r, Conducts strict checked n (runInitializers call r depth c) := by
      intro r
      unfold runInitializers
      cases (r.get c).superclass with
      | none => exact conducts_runInitializer hcall r c
      | some s => exact (ih s).bind fun _ => conducts_runInitializer hcall r c
    have hset : ∀ (w : World H) init, w.Calm (w.setInit c init) := fun w init =>
      .of_eq rfl (.refl _) (.refl _)
    intro w hw
    rw [initClassWithin_succ]
    cases hinit : (w.classState c).init with
    | done => exact .refl w
    | running t =>
      dsimp only
      split
      case isTrue => exact .refl w
      case isFalse h => exact ⟨t, h, hinit⟩
    | failed => exact Conducts.plain (.throwFault _) w hw
    | untouched =>
      refine Conducted.after (hset w (.running w.thread.id)) ?_
      refine (hrun _ _ (hw.calm (hset w _))).result_bind (fun _ v _ => hset v _) ?_
      exact fun thrown v _ hthrown => ⟨hset v _, hthrown⟩

theorem conducts_initClass (c : ClassId) : Conducts strict checked n (initClass call c) :=
  conducts_initClassWithin hcall _ c

end Initialization

/-- Guest code that makes objects is conducted. -/
theorem guest_rules (strict checked : Bool) (n : Nat) :
    GuestRules (H := H) fun a _ => Conducts strict checked n a where
  plain := Conducts.plain
  bind := Conducts.bind
  holding := Conducts.holding
  initClass := conducts_initClass

/-- So is all guest code, as long as it is not looked at what it throws. -/
theorem guest_congruence (strict : Bool) (n : Nat) :
    GuestCongruence (H := H) fun a _ => Conducts strict false n a where
  toGuestRules := guest_rules strict false n
  fail _ w _ := ⟨.refl w, nofun⟩
  panic _ w _ := .refl w
  result ha w hw := (ha w hw).result

end Guest

end GuestBoundary
