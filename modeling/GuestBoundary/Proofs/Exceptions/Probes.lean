import GuestBoundary.Proofs.Guest.Initialization
import GuestBoundary.Proofs.Interface.Failures

/-!
# Probes

A probe runs with nothing pending, and what was pending before it is put back once it has ended
(`preserving`).  Guest code may end on a panic, too, and then nothing is put back: the report of a
pending throwable leaves it pending just if no panic comes out of the report
(`describe_restores_unless_panic`).  Whatever else happens on the way, the thread stays attached
(`staysAttached_invoke`): a native method that has lost the attachment of its thread cannot have its
frame closed.
-/

namespace GuestBoundary

variable {H ε δ α β : Type}

/-! ## Threads that stay attached -/

/-- The running thread is attached. -/
def World.IsAttached (w : World H) : Prop := w.attachment.isSome = true

/-- A property of the state in which an action answers or fails, if it does. -/
def Outcome.ComesBack (P : World H → Prop) : Outcome H ε α → Prop
  | .ok _ w | .error _ w => P w
  | .panic _ _ | .halt _ _ => True

/-- Where the action answers or fails, the thread is attached, whatever was before. -/
def Attaches (a : Action H ε α) : Prop := ∀ w, (a w).ComesBack World.IsAttached

/-- Where the action answers or fails on an attached thread, the thread is still attached. -/
def StaysAttached (a : Action H ε α) : Prop :=
  ∀ w, w.IsAttached → (a w).ComesBack World.IsAttached

theorem Attaches.stays {a : Action H ε α} (ha : Attaches a) : StaysAttached a := fun w _ => ha w

theorem Outcome.ComesBack.andFinally {a : Action H ε α} {w : World H} {f : World H → World H}
    (ha : (a w).ComesBack World.IsAttached) (hf : ∀ w, (f w).attachment = w.attachment) :
    (a.andFinally f w).ComesBack World.IsAttached := by
  have hattached : ∀ w : World H, w.IsAttached → (f w).IsAttached := fun w h => by
    rw [World.IsAttached, hf]
    exact h
  unfold Action.andFinally
  cases hr : a w with
  | ok x w' =>
    rw [hr] at ha
    exact hattached w' ha
  | error e w' =>
    rw [hr] at ha
    exact hattached w' ha
  | panic m w' => trivial
  | halt r w' => trivial

/-- What holds where an action comes back is carried on to where the next one does. -/
theorem Outcome.ComesBack.bind {P : World H → Prop} {a : Action H ε α} {f : α → Action H ε β}
    {w : World H} (ha : (a w).ComesBack P) (hf : ∀ x w', P w' → (f x w').ComesBack P) :
    ((a >>= f) w).ComesBack P := by
  cases hr : a w with
  | ok x w' =>
    rw [hr] at ha
    rw [Action.bind_ok hr]
    exact hf x w' ha
  | error e w' =>
    rw [hr] at ha
    rw [Action.bind_error hr]
    exact ha
  | panic m w' =>
    rw [Action.bind_panic hr]
    trivial
  | halt r w' =>
    rw [Action.bind_halt hr]
    trivial

namespace Attaches

theorem bind {a : Action H ε α} {f : α → Action H ε β} (ha : Attaches a)
    (hf : ∀ x, StaysAttached (f x)) : Attaches (a >>= f) := fun w => (ha w).bind hf

/-- What attaches the thread does so after whatever came to an end. -/
theorem after_result {a : Action H ε α} {f : Except ε α → Action H δ β}
    (hf : ∀ r, Attaches (f r)) : Attaches ((a.result : Action H δ (Except ε α)) >>= f) := by
  intro w
  cases hr : a w with
  | ok x w' =>
    rw [Action.bind_ok (Action.result_ok hr)]
    exact hf _ w'
  | error e w' =>
    rw [Action.bind_ok (Action.result_error hr)]
    exact hf _ w'
  | panic m w' =>
    rw [Action.bind_panic (Action.result_panic hr)]
    trivial
  | halt r w' =>
    rw [Action.bind_halt (Action.result_halt hr)]
    trivial

/-- Without an attachment there is no step on it. -/
theorem onAttachment (f : Attachment → Except EntryError (α × Attachment)) :
    Attaches (Entry.onAttachment f : Entry H α) := by
  intro w
  unfold Entry.onAttachment
  cases ha : w.attachment with
  | none => trivial
  | some a =>
    dsimp only
    split
    · exact rfl
    · show w.attachment.isSome = true
      rw [ha]
      rfl

theorem popFrame (o : Option ObjectRef) : Attaches (Entry.popFrame o : Entry H Handle) := by
  refine (onAttachment _).bind fun promoted => ?_
  cases promoted with
  | ok h => exact fun w hw => hw
  | error e => exact fun w hw => hw

end Attaches

namespace StaysAttached

theorem still {a : Action H ε α} (h : Still a) : StaysAttached a := by
  intro w hw
  have hsettles := (h w).2
  have hattached : ∀ {w'}, World.SameSide w w' → w'.IsAttached := fun same => by
    rw [World.IsAttached, World.attachment, same.thread]
    exact hw
  cases hr : a w with
  | ok x w' =>
    rw [hr] at hsettles
    exact hattached hsettles
  | error e w' =>
    rw [hr] at hsettles
    exact hattached hsettles
  | panic m w' => trivial
  | halt r w' => trivial

theorem bind {a : Action H ε α} {f : α → Action H ε β} (ha : StaysAttached a)
    (hf : ∀ x, StaysAttached (f x)) : StaysAttached (a >>= f) := fun w hw => (ha w hw).bind hf

theorem result {a : Action H ε α} (ha : StaysAttached a) :
    StaysAttached (a.result : Action H δ (Except ε α)) := by
  intro w hw
  have hback := ha w hw
  unfold Action.result
  cases hr : a w with
  | ok x w' =>
    rw [hr] at hback
    exact hback
  | error e w' =>
    rw [hr] at hback
    exact hback
  | panic m w' => trivial
  | halt r w' => trivial

theorem holding {a : Action H ε α} (objects : List ObjectRef) (ha : StaysAttached a) :
    StaysAttached (Action.holding objects a) := by
  intro w hw
  have hinside := ha { w with held := objects ++ w.held } hw
  exact hinside.andFinally (f := fun after => { after with held := w.held }) fun _ => rfl

theorem inCall {a : Action H ε α} (ha : StaysAttached a) : StaysAttached (Guest.inCall a) := by
  intro w hw
  have hinside := ha (w.setDepth (w.thread.depth + 1)) hw
  exact hinside.andFinally (f := fun after => after.setDepth (after.thread.depth - 1)) fun _ => rfl

theorem onBridge (f : Bridge → Except EntryError (α × Bridge)) :
    StaysAttached (Entry.onBridge f : Entry H α) := by
  intro w hw
  unfold Entry.onBridge
  cases w.bridge with
  | none => trivial
  | some b =>
    dsimp only
    split
    · exact hw
    · exact hw

theorem ofExcept (r : Except ε α) : StaysAttached (Action.ofExcept r : Action H ε α) := by
  cases r with
  | ok x => exact fun w hw => hw
  | error e => exact fun w hw => hw

theorem throwable (e : EntryError) :
    StaysAttached (Entry.throwable e : Action H ε ObjectRef) := by
  unfold Entry.throwable
  cases e.surface with
  | object o => exact .still (.pure o)
  | fault f =>
    intro w hw
    show (World.materialize w f).2.attachment.isSome = true
    rw [World.attachment, (w.sameSide_materialize f).thread]
    exact hw
  | none v => exact fun w hw => trivial

theorem mirror (c : ClassId) : StaysAttached (Guest.mirror c : Action H ε ObjectRef) := by
  intro w hw
  unfold Guest.mirror Action.step
  dsimp only
  cases (w.classState c).mirror with
  | some o => exact hw
  | none => exact hw

end StaysAttached

/-! ## Calls -/

namespace Native

variable (native : NativeCode H) (call : Invoker H)

/-- The frame of a call is closed at its end, and that needs an attachment, whatever the native
function did. -/
theorem attaches_callBound (env : Env) (binding : Binding) (receiver : ObjectRef)
    (args : List Value) : Attaches (callBound native call env binding receiver args) := by
  refine (Attaches.onAttachment _).bind fun _ => Attaches.stays (.after_result fun r => ?_)
  have hpop : Attaches (discard (Entry.popFrame none) : Entry H Unit) :=
    (Attaches.popFrame none).bind fun _ => .still (.pure ())
  refine hpop.bind fun _ => (StaysAttached.ofExcept r).bind fun v => ?_
  refine (Attaches.onAttachment _).stays.bind fun taken => ?_
  cases taken with
  | none => exact .still (.pure v)
  | some o => exact .still (.fail _)

theorem staysAttached_runMethod (env : Env) (m : MethodRef) (receiver : Option ObjectRef)
    (args : List Value) : StaysAttached (runMethod native call env m receiver args) := by
  refine StaysAttached.bind (fun w hw => hw) fun r => ?_
  refine (StaysAttached.onBridge _).bind fun binding => (StaysAttached.onBridge _).bind fun b => ?_
  have hbound : ∀ o, StaysAttached (callBound native call env binding o args) := fun o =>
    (attaches_callBound native call env binding o args).stays
  dsimp only
  split
  · refine (StaysAttached.ofExcept _).bind fun _ => ?_
    cases receiver with
    | none => exact (StaysAttached.mirror m.owner).bind hbound
    | some o => exact hbound o
  · cases receiver with
    | none => exact (StaysAttached.mirror m.owner).bind hbound
    | some o => exact hbound o

theorem attaches_attach (b : Bridge) :
    Attaches (Action.step fun w => w.attach b : Action H ε Env) := by
  intro w
  unfold Action.step World.attach
  dsimp only
  cases ha : w.attachment with
  | none => exact rfl
  | some a =>
    show w.attachment.isSome = true
    rw [ha]
    rfl

theorem staysAttached_invoke (m : MethodRef) (receiver : Option ObjectRef) (args : List Value) :
    StaysAttached (Native.invoke native call m receiver args) := by
  refine StaysAttached.bind (fun w hw => hw) fun w => ?_
  dsimp only
  split
  · exact .still (Plain.throwFault _).still
  next b hb =>
    refine (attaches_attach b).stays.bind fun env => ?_
    refine (staysAttached_runMethod native call env m receiver args).result.bind fun r => ?_
    cases r with
    | ok v => exact .still (.pure v)
    | error e => exact (StaysAttached.throwable e).bind fun o => .still (.fail o)

end Native

namespace Guest

section Initialization

variable {call : Invoker H} (hcall : CallsRelated (fun a _ => StaysAttached a) call call)
include hcall

theorem staysAttached_runInitializer (r : Registry) (c : ClassId) :
    StaysAttached (runInitializer call r c) := by
  unfold runInitializer
  split
  next m _ =>
    refine StaysAttached.bind (fun w hw => hw) fun _ => ?_
    exact (hcall m none []).bind fun _ => .still (.pure ())
  next => exact .still (.pure ())

theorem staysAttached_initClassWithin (depth : Nat) (c : ClassId) :
    StaysAttached (initClassWithin call depth c) := by
  induction depth generalizing c with
  | zero => exact .still (.pure ())
  | succ depth ih =>
    have hnote : ∀ r, StaysAttached (noteInit (H := H) c r) := by
      intro r w hw
      cases r with
      | ok _ => exact hw
      | error thrown => exact hw
    have hrun : ∀ r, StaysAttached (runInitializers call r depth c) := by
      intro r
      have hown := staysAttached_runInitializer hcall r c
      unfold runInitializers
      dsimp only
      split
      · exact (ih _).bind fun _ => hown
      · exact hown
    intro w hw
    rw [initClassWithin_succ]
    split
    · exact hw
    · split
      · exact hw
      · trivial
    · exact StaysAttached.still (Plain.throwFault _).still w hw
    · exact (hrun _).result.bind hnote _ hw

end Initialization

theorem staysAttached_congruence : GuestCongruence (H := H) fun a _ => StaysAttached a where
  plain h := .still h.still
  bind := .bind
  holding := .holding
  initClass hcall c := staysAttached_initClassWithin hcall _ c
  fail o := .still (.fail o)
  panic m := .still (.panic m)
  result := .result

/-- Guest code leaves an attached thread attached, whatever native methods do. -/
theorem staysAttached_invoke (native : NativeCode H) (fuel : Nat) (m : MethodRef)
    (receiver : Option ObjectRef) (args : List Value) :
    StaysAttached (invoke native fuel m receiver args) := by
  induction fuel generalizing m receiver args with
  | zero => exact fun w hw => trivial
  | succ fuel ih =>
    have hcall : CallsRelated (fun a _ => StaysAttached a) (invoke native fuel)
        (invoke native fuel) := ih
    have hnative : CallsRelated (fun a _ => StaysAttached a)
        (Native.invoke native (invoke native fuel)) (Native.invoke native (invoke native fuel)) :=
      Native.staysAttached_invoke native _
    refine StaysAttached.bind (fun w hw => hw) fun w => ?_
    dsimp only
    split
    · exact .still (Plain.throwFault _).still
    · refine .holding _ (.inCall ?_)
      split
      · refine (staysAttached_congruence.checkReceiver hcall m receiver).bind fun _ => ?_
        exact staysAttached_congruence.runBody receiver args hcall hnative m
      · exact .still (Plain.throwFault _).still

end Guest

/-! ## Probes -/

namespace World

/-- Nothing is pending any more. -/
def cleared (w : World H) : World H := w.updatePending Pending.clear

/-- What was pending before a probe is put back. -/
def restored (w : World H) (saved : Option ObjectRef) : World H :=
  w.updatePending (Pending.restore saved)

theorem isAttached_updatePending {w : World H} (hw : w.IsAttached)
    (f : Pending ObjectRef → Pending ObjectRef) : (w.updatePending f).IsAttached := by
  rw [IsAttached] at hw ⊢
  exact Option.isSome_map.trans hw

/-- What was pending is pending again; where nothing was, it is what the probe left. -/
theorem pending_restored {w : World H} (hw : w.IsAttached) (saved : Option ObjectRef) :
    (w.restored saved).pending = saved.or w.pending := by
  obtain ⟨a, ha⟩ := Option.isSome_iff_exists.1 hw
  unfold restored updatePending pending
  rw [ha]
  cases saved <;> rfl

/-- The throwable of a fault is pending on a thread that is attached. -/
theorem pending_raised_eq (w : World H) (fault : GuestFault) :
    (w.raised fault).pending = w.attachment.map fun _ => ⟨w.heap.size⟩ := by
  cases ha : w.attachment with
  | none =>
    have hthread : (w.materialize fault).2.attachment = none := by
      rw [attachment, (w.sameSide_materialize fault).thread]
      exact ha
    rw [raised, setPending, updatePending, hthread]
    rfl
  | some a => exact pending_raised (by rw [ha]; rfl) fault

end World

/-- Runs a probe with nothing pending, and then puts back what was pending before. -/
def preserving (probe : Action H ε α) : Action H ε α := do
  let saved ← Action.read World.pending
  Action.update World.cleared
  let x ← probe
  Action.update fun w => w.restored saved
  return x

/-- A probe in which other ones run: each layer does something before the next one and something
after it. -/
def nested (probe : Action H ε Unit) : List (Action H ε Unit × Action H ε Unit) → Action H ε Unit
  | [] => preserving probe
  | (before, after) :: layers => preserving do
    before
    nested probe layers
    after

section Preserving

variable {probe : Action H ε α} {w v w' : World H}

/-- A probe that answers is followed by putting back what was pending; all else that may come of it
comes of the whole. -/
theorem preserving_eq (probe : Action H ε α) (w : World H) :
    preserving probe w =
      match probe w.cleared with
      | .ok x v => .ok x (v.restored w.pending)
      | .error e v => .error e v
      | .panic m v => .panic m v
      | .halt r v => .halt r v := rfl

theorem staysAttached_preserving (hprobe : StaysAttached probe) :
    StaysAttached (preserving probe) := by
  refine StaysAttached.bind (fun w hw => hw) fun saved => ?_
  refine StaysAttached.bind (fun w hw => World.isAttached_updatePending hw _) fun _ => ?_
  refine hprobe.bind fun x => ?_
  exact StaysAttached.bind (fun w hw => World.isAttached_updatePending hw _) fun _ => .still (.pure x)

/-- What was pending before a probe is pending after it. -/
theorem pending_preserving (hprobe : StaysAttached probe) (hw : w.IsAttached) {x : α}
    (h : preserving probe w = .ok x w') {o : ObjectRef} (ho : w.pending = some o) :
    w'.pending = some o := by
  have hback := hprobe w.cleared (World.isAttached_updatePending hw _)
  rw [preserving_eq] at h
  cases hr : probe w.cleared with
  | ok y v =>
    rw [hr] at h hback
    cases h
    rw [World.pending_restored hback, ho]
    rfl
  | error e v =>
    rw [hr] at h
    cases h
  | panic m v =>
    rw [hr] at h
    cases h
  | halt r v =>
    rw [hr] at h
    cases h

theorem staysAttached_nested {probe : Action H ε Unit} (hprobe : StaysAttached probe)
    {layers : List (Action H ε Unit × Action H ε Unit)}
    (hlayers : ∀ l ∈ layers, StaysAttached l.1 ∧ StaysAttached l.2) :
    StaysAttached (nested probe layers) := by
  induction layers with
  | nil => exact staysAttached_preserving hprobe
  | cons l layers ih =>
    obtain ⟨⟨hbefore, hafter⟩, hlayers⟩ := List.forall_mem_cons.1 hlayers
    exact staysAttached_preserving (hbefore.bind fun _ => (ih hlayers).bind fun _ => hafter)

/-- However deeply probes are nested, what was pending before the outermost one is pending after
it. -/
theorem pending_nested {probe : Action H ε Unit} (hprobe : StaysAttached probe)
    {layers : List (Action H ε Unit × Action H ε Unit)}
    (hlayers : ∀ l ∈ layers, StaysAttached l.1 ∧ StaysAttached l.2) (hw : w.IsAttached) {x : Unit}
    (h : nested probe layers w = .ok x w') {o : ObjectRef} (ho : w.pending = some o) :
    w'.pending = some o := by
  cases layers with
  | nil => exact pending_preserving hprobe hw h ho
  | cons l layers =>
    obtain ⟨⟨hbefore, hafter⟩, hlayers⟩ := List.forall_mem_cons.1 hlayers
    have hinside := staysAttached_nested hprobe hlayers
    exact pending_preserving (hbefore.bind fun _ => hinside.bind fun _ => hafter) hw h ho

end Preserving

/-! ## Reports -/

namespace Interface

variable {native : NativeCode H} {fuel : Nat} {call : Invoker H} {w v w' : World H} {o : ObjectRef}

/-- The report of a throwable; it does not matter whether it throws. -/
def reporting (call : Invoker H) (o : ObjectRef) : Entry H (Except ObjectRef Value) :=
  Action.holding [o] (report call o).result

theorem staysAttached_reporting (native : NativeCode H) (fuel : Nat) (o : ObjectRef) :
    StaysAttached (reporting (Guest.invoke native fuel) o) := by
  have hcall : CallsRelated (fun a _ => StaysAttached a) (Guest.invoke native fuel)
      (Guest.invoke native fuel) := Guest.staysAttached_invoke native fuel
  exact .holding _ (Guest.staysAttached_congruence.report hcall o).result

/-- The report is a probe. -/
theorem exceptionDescribe_eq (ho : w.pending = some o) :
    exceptionDescribe call w = (discard (preserving (reporting call o)) : Entry H Unit) w := by
  have hread : (Action.read World.pending : Entry H _) w = .ok (some o) w :=
    congrArg (Outcome.ok · w) ho
  rw [exceptionDescribe, Action.bind_ok hread]
  show ((reporting call o >>= fun _ => pure ()) >>= fun _ =>
      Action.update fun w => w.restored (some o) : Entry H Unit) w.cleared =
    (preserving (reporting call o) >>= fun _ => pure ()) w
  rw [Action.bind_assoc]
  show Action.andThen _ _ _ = Action.andThen _ _ _
  rw [Action.andThen, Action.andThen, preserving_eq, ho]
  cases reporting call o w.cleared <;> rfl

/-- A panic of a function leaves a new throwable pending. -/
theorem callFunction_panics {f : Function} {args : List Argument} {m : Option String}
    (hw : w.IsAttached) (hbody : perform call f args w = .panic m v) :
    (callFunction call (ownEnv w) f args w : Outcome H ε Answer) = .ok (.plain f.failure)
      (v.raised ⟨.internal, f.name ++ ": " ++ m.getD unknownPanic⟩) := by
  rw [callFunction_own hw call]
  unfold contain
  rw [hbody]
  rfl

section Report

variable (hw : w.IsAttached) (ho : w.pending = some o)
include hw ho

/-- The report answered or threw. -/
theorem describe_of_reported {r : Except ObjectRef Value}
    (hr : reporting call o w.cleared = .ok r v) :
    ask call .exceptionDescribe [] w = .ok (.plain .nothing) (v.restored (some o)) := by
  have hprobe : preserving (reporting call o) w = .ok r (v.restored (some o)) := by
    rw [preserving_eq, hr, ho]
  have hbody : exceptionDescribe call w = .ok () (v.restored (some o)) := by
    rw [exceptionDescribe_eq ho]
    exact Action.bind_ok hprobe
  exact callFunction_done hw (Action.bind_ok hbody)

theorem describe_of_panic {m : Option String} (hr : reporting call o w.cleared = .panic m v) :
    ask call .exceptionDescribe [] w = .ok (.plain .nothing)
      (v.raised ⟨.internal, "ExceptionDescribe: " ++ m.getD unknownPanic⟩) := by
  have hprobe : preserving (reporting call o) w = .panic m v := by
    rw [preserving_eq, hr]
  have hbody : exceptionDescribe call w = .panic m v := by
    rw [exceptionDescribe_eq ho]
    exact Action.bind_panic hprobe
  exact callFunction_panics hw (Action.bind_panic hbody)

theorem describe_of_halt {reason : Halt} (hr : reporting call o w.cleared = .halt reason v) :
    ask call .exceptionDescribe [] w = .halt reason v := by
  have hprobe : preserving (reporting call o) w = .halt reason v := by
    rw [preserving_eq, hr]
  have hbody : exceptionDescribe call w = .halt reason v := by
    rw [exceptionDescribe_eq ho]
    exact Action.bind_halt hprobe
  rw [ask, callFunction_own hw call]
  exact contain_halt (Action.bind_halt hbody)

end Report

/-- Nothing that is thrown comes out of a report. -/
theorem reporting_ne_error (call : Invoker H) (o : ObjectRef) (w : World H) (e : EntryError)
    (v : World H) : reporting call o w ≠ .error e v := by
  unfold reporting Action.holding Action.andFinally Action.result
  cases report call o { w with held := [o] ++ w.held } <;> nofun

/-- What becomes of a throwable that is pending where probes run, and where it is reported. -/
structure Restores (native : NativeCode H) (fuel : Nat) (w : World H) (o : ObjectRef) : Prop where
  /-- A report that answers or throws leaves it pending. -/
  reported : ∀ r v, reporting (Guest.invoke native fuel) o w.cleared = .ok r v →
    ask (Guest.invoke native fuel) .exceptionDescribe [] w =
        .ok (.plain .nothing) (v.restored (some o)) ∧
      (v.restored (some o)).pending = some o
  /-- A panic that comes out of the report is pending in its place, as a new `InternalError`. -/
  panicked : ∀ m v, reporting (Guest.invoke native fuel) o w.cleared = .panic m v →
    ask (Guest.invoke native fuel) .exceptionDescribe [] w = .ok (.plain .nothing)
        (v.raised ⟨.internal, "ExceptionDescribe: " ++ m.getD unknownPanic⟩) ∧
      ∀ fault, (v.raised fault).pending = v.attachment.map fun _ => ⟨v.heap.size⟩
  /-- The run is over if it is over in the report. -/
  halted : ∀ reason v, reporting (Guest.invoke native fuel) o w.cleared = .halt reason v →
    ask (Guest.invoke native fuel) .exceptionDescribe [] w = .halt reason v
  /-- So it is pending afterwards just if the report does not panic. -/
  same_iff : ∀ answer w', ask (Guest.invoke native fuel) .exceptionDescribe [] w = .ok answer w' →
    (∀ m v, reporting (Guest.invoke native fuel) o w.cleared = .panic m v →
      o.index < v.heap.size) →
    (w'.pending = some o ↔
      ∀ m v, reporting (Guest.invoke native fuel) o w.cleared ≠ .panic m v)
  /-- It is pending after probes that are nested in any way and come to an end. -/
  nested : ∀ (probe : Action H Empty Unit) layers, StaysAttached probe →
    (∀ l ∈ layers, StaysAttached l.1 ∧ StaysAttached l.2) →
    ∀ x w', nested probe layers w = .ok x w' → w'.pending = some o
  /-- A probe that panics leaves what it leaves. -/
  unwound : ∀ (probe : Action H Empty Unit) m v,
    preserving probe w = .panic m v ↔ probe w.cleared = .panic m v

/-- Whatever is done while a throwable is reported, in guest code and in native methods, it is
pending again afterwards, unless a panic comes out of the report. -/
theorem describe_restores_unless_panic (native : NativeCode H) (fuel : Nat) (hw : w.IsAttached)
    (ho : w.pending = some o) : Restores native fuel w o := by
  have hstays := staysAttached_reporting native fuel o
  have hrestored : ∀ r v, reporting (Guest.invoke native fuel) o w.cleared = .ok r v →
      (v.restored (some o)).pending = some o := by
    intro r v hr
    have hback := hstays w.cleared (World.isAttached_updatePending hw _)
    rw [hr] at hback
    exact World.pending_restored hback (some o)
  constructor
  case reported => exact fun r v hr => ⟨describe_of_reported hw ho hr, hrestored r v hr⟩
  case panicked => exact fun m v hr => ⟨describe_of_panic hw ho hr, World.pending_raised_eq v⟩
  case halted => exact fun reason v hr => describe_of_halt hw ho hr
  case same_iff =>
    intro answer w' hask hheap
    cases hr : reporting (Guest.invoke native fuel) o w.cleared with
    | ok r v =>
      rw [describe_of_reported hw ho hr] at hask
      cases hask
      refine iff_of_true (hrestored r v hr) fun m v' h => ?_
      cases h
    | error e v => exact absurd hr (reporting_ne_error _ o _ e v)
    | panic m v =>
      rw [describe_of_panic hw ho hr] at hask
      cases hask
      refine iff_of_false (fun hsame => ?_) fun hnot => hnot m v rfl
      rw [World.pending_raised_eq, Option.map_eq_some_iff] at hsame
      obtain ⟨-, -, rfl⟩ := hsame
      exact absurd (hheap m v hr) (Nat.lt_irrefl _)
    | halt reason v =>
      rw [describe_of_halt hw ho hr] at hask
      cases hask
  case nested =>
    exact fun probe layers hprobe hlayers x w' h => pending_nested hprobe hlayers hw h ho
  case unwound =>
    intro probe m v
    rw [preserving_eq]
    cases probe w.cleared with
    | ok x v' => exact iff_of_false nofun nofun
    | error e v' => exact e.elim
    | panic m' v' => rfl
    | halt reason v' => exact iff_of_false nofun nofun

/-- A throwable whose report panics. -/
def loud : ClassSpec :=
  ⟨"Loud", .concrete, some "java/lang/RuntimeException", [], [],
    [⟨"printStackTrace", "()V", false, .code (.panic (some "boom"))⟩]⟩

/-- An attached thread on which such a throwable is pending. -/
def alarm : World Unit :=
  let w := (World.start World.defaultCallDepth .growing ()).defineOrKeep loud
  { (w.newInstance ⟨28⟩).2.setAttachment (some ⟨0, .empty 4096, ⟨some ⟨0⟩⟩⟩) with
    linked := true, bridge := some (.empty .default), bridgeHeld := true, attachments := 1 }

/-- The throwable of the thread is reported. -/
def alarmed : Outcome Unit Empty Answer :=
  ask (Guest.invoke (fun _ _ => Action.halt .misuse) 1) .exceptionDescribe [] alarm

theorem alarm_restores : alarm.IsAttached ∧ alarm.pending = some ⟨0⟩ ∧
    Restores (fun _ _ => Action.halt .misuse) 1 alarm ⟨0⟩ :=
  ⟨rfl, rfl, describe_restores_unless_panic (fun _ _ => Action.halt .misuse) 1 rfl rfl⟩

/-- What is pending after the report, and its class. -/
def alarmedPending : Option (ObjectRef × String) :=
  match alarmed with
  | .ok _ w => w.pending.map fun o => (o, w.className o)
  | _ => none

/-- Another throwable is pending after the report. -/
theorem report_loses_throwable :
    alarm.className ⟨0⟩ = "Loud" ∧ alarmedPending = some (⟨1⟩, "java/lang/InternalError") ∧
    ¬ ∀ (native : NativeCode Unit) (fuel : Nat) (w : World Unit) (o : ObjectRef) answer w',
      w.IsAttached → w.pending = some o →
      ask (Guest.invoke native fuel) .exceptionDescribe [] w = .ok answer w' →
      w'.pending = some o := by
  have hrun : alarm.className ⟨0⟩ = "Loud" ∧
      alarmedPending = some (⟨1⟩, "java/lang/InternalError") := by decide +kernel
  obtain ⟨hloud, hpending⟩ := hrun
  refine ⟨hloud, hpending, fun hall => ?_⟩
  unfold alarmedPending at hpending
  split at hpending
  next answer w' hask =>
    rw [hall _ _ alarm ⟨0⟩ answer w' rfl rfl hask] at hpending
    cases hpending
  next => cases hpending

end Interface

end GuestBoundary
