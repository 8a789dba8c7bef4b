import GuestBoundary.Proofs.Native.Calls
import Mathlib.Logic.Relation

/-!
# Relations that do not see attachments

A relation that is neutral for guest code and does not see what the running thread does to its local
references either is kept by every function of the interface, those that work on frames and local
references included.  It is kept by native methods if it is by native code, and then by calls of any
depth.
-/

namespace GuestBoundary

variable {H ε α : Type} {R : World H → World H → Prop}

/-- The references of an attachment are in order if those of the running thread are. -/
def World.Tends (w : World H) (a : Option Attachment) : Prop :=
  (∀ x, w.attachment = some x → x.locals.WellFormed) → ∀ x, a = some x → x.locals.WellFormed

theorem World.Tends.of_some {w : World H} {a a' : Attachment} (ha : w.attachment = some a)
    (h : a.locals.WellFormed → a'.locals.WellFormed) : w.Tends (some a') := by
  intro hw x hx
  cases hx
  exact h (hw a ha)

theorem World.Tends.pending (w : World H) (f : Pending ObjectRef → Pending ObjectRef) :
    w.Tends (w.attachment.map fun a => { a with pending := f a.pending }) := by
  intro hw x hx
  obtain ⟨a, ha, rfl⟩ := Option.map_eq_some_iff.1 hx
  exact hw a ha

theorem World.Tends.create {w : World H} {a : Attachment} {o h locals}
    (ha : w.attachment = some a) (hc : a.locals.create o = .ok (h, locals)) :
    w.Tends (some { a with locals }) := .of_some ha fun wf => wf.create hc

theorem World.Tends.ensure {w : World H} {a : Attachment} {c locals}
    (ha : w.attachment = some a) (he : a.locals.ensure c = .ok locals) :
    w.Tends (some { a with locals }) := .of_some ha fun wf => by
  have hperform : (a.locals.perform (.ensure c)).2 = locals := by rw [Locals.perform, he]
  exact hperform ▸ wf.perform (.ensure c)

/-! ## How actions end -/

/-- The first relation does not see what guest code does on its own, nor references, frames, pending
throwables and what the bridge holds besides the numbers of members.  The second one goes from there
to the end of the run. -/
structure FinishNeutral (R Q : World H → World H → Prop) : Prop extends Composes R Q where
  sameSide : ∀ {w w'}, World.SameSide w w' → R w w'
  initClass : ∀ {call : Invoker H}, CallsFinish R Q call →
    ∀ c, Finishes R Q (Guest.initClass call c)
  withBridge : ∀ {w : World H} {b b' : Bridge}, w.bridge = some b → b.Develops b' →
    R w { w with bridge := some b' }
  setAttachment : ∀ {w : World H} {a : Option Attachment}, w.Tends a → R w (w.setAttachment a)

/-- Native code ends as the relations say if the calls that it makes do. -/
def NativeFinishes (R Q : World H → World H → Prop) (native : NativeCode H) : Prop :=
  ∀ {call : Invoker H}, CallsFinish R Q call → ∀ c, Finishes R Q (native call c)

namespace FinishNeutral

open Interface

variable {Q : World H → World H → Prop} (n : FinishNeutral R Q)
include n

/-- Steps on the attachment of the running thread are such steps. -/
theorem entry : EntryFinishNeutral R Q where
  toComposes := n.toComposes
  sameSide := n.sameSide
  initClass := n.initClass
  withBridge := n.withBridge
  pending w f := n.setAttachment (.pending w f)
  create ha hc := n.setAttachment (.create ha hc)
  ensure ha he := n.setAttachment (.ensure ha he)

theorem attach (w : World H) (b : Bridge) : R w (w.attach b).2 := by
  unfold World.attach
  cases w.attachment with
  | some a => exact n.refl w
  | none =>
    refine n.trans (n.setAttachment fun _ x hx => ?_)
      (n.sameSide (.of_eq rfl (.of_eq rfl) (.refl _)))
    cases hx
    exact Locals.wellFormed_empty _

theorem onAttachment {f : Attachment → Except EntryError (α × Attachment)}
    (hf : ∀ a x a', f a = .ok (x, a') → a.locals.WellFormed → a'.locals.WellFormed) :
    Finishes R Q (Entry.onAttachment f : Entry H α) := by
  intro w
  unfold Entry.onAttachment
  cases ha : w.attachment with
  | none => exact n.ends (n.refl w)
  | some a =>
    dsimp only
    split
    next h => exact n.setAttachment (.of_some ha (hf _ _ _ h))
    next => exact n.refl w

theorem pushFrame (capacity : Nat) : Finishes R Q (Entry.pushFrame capacity : Entry H Unit) := by
  refine n.onAttachment fun a x a' h wf => ?_
  split at h <;> cases h
  next locals hpush =>
    have hperform : (a.locals.perform (.push capacity)).2 = locals := by rw [Locals.perform, hpush]
    exact hperform ▸ wf.perform (.push capacity)

theorem popFrame (o : Option ObjectRef) : Finishes R Q (Entry.popFrame o : Entry H Handle) := by
  have p := n.toComposes
  refine Finishes.bind p (n.onAttachment fun a x a' h wf => ?_) fun promoted => ?_
  · split at h <;> cases h
    next locals hpop => exact Locals.perform_pop hpop ▸ wf.perform (.pop o)
  · cases promoted with
    | ok h => exact .pure p h
    | error e => exact .fail p _

theorem deleteLocalRef (h : Handle) : Finishes R Q (Interface.deleteLocalRef h : Entry H Unit) := by
  unfold Interface.deleteLocalRef
  split
  · exact .pure n.toComposes ()
  · refine n.onAttachment fun a x a' hf wf => ?_
    split at hf <;> cases hf
    next locals hdelete =>
      have hperform : (a.locals.perform (.delete h)).2 = locals := by rw [Locals.perform, hdelete]
      exact hperform ▸ wf.perform (.delete h)

/-! ### Functions of the interface -/

variable {call : Invoker H} (hcall : CallsFinish R Q call)
include hcall

/-- Whatever a function does finishes as the relations say. -/
theorem perform {f : Function} {args : List Argument} (hs : Shaped f args) :
    Finishes R Q (Interface.perform call f args) := by
  have p := n.toComposes
  have k := n.entry.rules
  by_cases hf : f.isNeutral = true
  · exact finishes_perform n.entry hcall hs hf
  · cases hs with
    | pushLocalFrame c =>
      exact Finishes.bind p (k.after (.capacity c) fun c => n.pushFrame c) fun _ => .pure p _
    | popLocalFrame h =>
      exact Finishes.bind p (k.after (.object h) fun o => n.popFrame o) fun _ => .pure p _
    | deleteLocalRef h => exact Finishes.bind p (n.deleteLocalRef h) fun _ => .pure p _
    | _ => exact absurd rfl hf

theorem callFunction (env : Option Env) {f : Function} {args : List Argument}
    (hs : Shaped f args) :
    Finishes R Q (Interface.callFunction call env f args : Action H ε Answer) :=
  finishes_guarded n.entry env _ (n.perform hcall hs)

omit hcall

/-! ### Native methods -/

theorem finish (result : Except EntryError Value) :
    Finishes R Q (Native.finish result : Entry H Value) := by
  have p := n.toComposes
  refine Finishes.bind p (Finishes.discard p (n.popFrame none)) fun _ => ?_
  refine Finishes.bind p (Finishes.ofExcept p result) fun v => ?_
  refine Finishes.bind p (n.onAttachment fun a x a' h wf => ?_) fun taken => ?_
  · cases h
    exact wf
  · cases taken with
    | none => exact .pure p v
    | some o => exact .fail p _

variable {native : NativeCode H} (hnative : NativeFinishes R Q native)
include hnative hcall

theorem callBound (env : Env) (binding : Binding) (receiver : ObjectRef) (args : List Value) :
    Finishes R Q (Native.callBound native call env binding receiver args) := by
  have p := n.toComposes
  rw [Native.callBound_eq]
  refine Finishes.bind p (n.pushFrame _) fun _ => Finishes.bind p (Finishes.result ?_) n.finish
  rw [Native.callInFrame_eq]
  have hmarshal : Finishes R Q (Native.marshal env binding receiver args : Entry H NativeCall) :=
    Native.obeys_marshal n.entry.rules env binding receiver args
  exact Finishes.bind p hmarshal fun c =>
    Finishes.bind p ((hnative hcall c).mapError _) fun _ => .read p _

theorem runMethod (env : Env) (m : MethodRef) (receiver : Option ObjectRef) (args : List Value) :
    Finishes R Q (Native.runMethod native call env m receiver args) := by
  have p := n.toComposes
  have k := n.entry.rules
  have hbound : ∀ binding o, Finishes R Q (Native.callBound native call env binding o args) :=
    fun binding o => n.callBound hcall hnative env binding o args
  refine Finishes.bind p (.read p _) fun r => Finishes.bind p (k.resolve r m) fun binding => ?_
  refine Finishes.bind p (k.checks .bridge) fun b => ?_
  dsimp only
  split
  · refine Finishes.bind p (Finishes.ofExcept p _) fun _ => ?_
    cases receiver with
    | none => exact Finishes.bind p (k.mirror _) (hbound binding)
    | some o => exact hbound binding o
  · cases receiver with
    | none => exact Finishes.bind p (k.mirror _) (hbound binding)
    | some o => exact hbound binding o

theorem nativeInvoke : CallsFinish R Q (Native.invoke native call) := by
  intro m receiver args
  have p := n.toComposes
  have hattach : ∀ b, Finishes R Q (Action.step fun w => w.attach b : Guest H Env) := fun b w =>
    n.attach w b
  refine Finishes.bind p (.world p) fun w => ?_
  dsimp only
  split
  · exact n.entry.still (Plain.throwFault _).still
  · refine Finishes.bind p (hattach _) fun env => ?_
    refine Finishes.bind p (n.runMethod hcall hnative env m receiver args).result fun r => ?_
    cases r with
    | ok v => exact .pure p v
    | error e => exact Finishes.bind p (n.entry.throwable e) fun o => .fail p o

end FinishNeutral

/-! ## What actions keep -/

/-- The relation does not see what guest code does on its own, nor references, frames, pending
throwables and what the bridge holds besides the numbers of members. -/
structure AttachmentNeutral (R : World H → World H → Prop) : Prop extends GuestNeutral R where
  withBridge : ∀ {w : World H} {b b' : Bridge}, w.bridge = some b → b.Develops b' →
    R w { w with bridge := some b' }
  setAttachment : ∀ {w : World H} {a : Option Attachment}, w.Tends a → R w (w.setAttachment a)

/-- Native code keeps the relation if the calls that it makes do. -/
def NativeKeeps (R : World H → World H → Prop) (native : NativeCode H) : Prop :=
  ∀ {call : Invoker H}, CallsKeep R call → ∀ c, Keeps R (native call c)

/-- A course that returns keeps what it says of the state that it leaves. -/
theorem Outcome.Returns.leaves {o : Outcome H ε α} {Q : World H → Prop}
    (h : o.Returns fun _ w => Q w) : o.Leaves Q := by
  cases o with
  | ok a w => exact h
  | error e w => exact h.elim
  | panic m w => exact h.elim
  | halt r w => trivial

/-- Where classes are initialized in steps that the relation does not see, ends of runs follow. -/
theorem ProgressNeutral.finishNeutral {Q : World H → World H → Prop} (n : ProgressNeutral R)
    (a : AttachmentNeutral R) (p : Composes R Q) : FinishNeutral R Q where
  toComposes := p
  sameSide := n.sameSide
  initClass hcall c := n.finishes_initClassWithin p hcall _ c
  withBridge := a.withBridge
  setAttachment := a.setAttachment

namespace AttachmentNeutral

open Interface

variable (n : AttachmentNeutral R) {call : Invoker H}
include n

theorem entryNeutral : EntryNeutral R where
  toGuestNeutral := n.toGuestNeutral
  withBridge := n.withBridge
  pending w f := n.setAttachment (.pending w f)
  create ha hc := n.setAttachment (.create ha hc)
  ensure ha he := n.setAttachment (.ensure ha he)

/-- Nothing is asked of runs that are over. -/
theorem finishNeutral : FinishNeutral R fun _ _ => True where
  toComposes := n.toComposable.composes_true
  sameSide := n.sameSide
  initClass hcall c := finishes_true_iff.2 (n.initClass hcall.keep c)
  withBridge := n.withBridge
  setAttachment := n.setAttachment

theorem attach (w : World H) (b : Bridge) : R w (w.attach b).2 := n.finishNeutral.attach w b

theorem perform (hcall : CallsKeep R call) {f : Function} {args : List Argument}
    (hs : Shaped f args) : Keeps R (Interface.perform call f args) :=
  finishes_true_iff.1 (n.finishNeutral.perform hcall.finish hs)

/-- A function keeps the relation and answers, or the run is over. -/
theorem returns_callFunction (hcall : CallsKeep R call) (env : Option Env) {f : Function}
    {args : List Argument} (hs : Shaped f args) (w : World H) :
    (callFunction call env f args w : Outcome H ε Answer).Returns fun _ w' => R w w' :=
  returns_guarded env (returns_contain n.entryNeutral _ (n.perform hcall hs) w)

variable {native : NativeCode H} (hnative : NativeKeeps R native)
include hnative

theorem nativeInvoke (hcall : CallsKeep R call) : CallsKeep R (Native.invoke native call) :=
  (n.finishNeutral.nativeInvoke hcall.finish
    fun hcall c => finishes_true_iff.2 (hnative hcall.keep c)).keep

/-- Calls keep the relation, however deeply they are nested, if it does not see that they are in
progress. -/
theorem invoke (hin : ∀ {w w'}, R (w.setDepth (w.thread.depth + 1)) w' →
    R w (w'.setDepth (w'.thread.depth - 1))) (fuel : Nat) :
    CallsKeep R (Guest.invoke native fuel) := by
  have c : CallNeutral R := ⟨n.toGuestNeutral, hin⟩
  induction fuel with
  | zero => exact fun _ _ _ => .halt _
  | succ fuel ih =>
    exact fun m receiver args => c.invokeWith receiver args ih (n.nativeInvoke hnative ih) m

end AttachmentNeutral

/-! ## Everything that can happen -/

/-- The state that an action leaves behind, unless the run is over. -/
def Outcome.after? : Outcome H ε α → Option (World H)
  | .ok _ w | .error _ w | .panic _ w => some w
  | .halt _ _ => none

theorem Outcome.Leaves.of_after? {o : Outcome H ε α} {P : World H → Prop} {w : World H}
    (h : o.Leaves P) (ho : o.after? = some w) : P w := by
  cases o <;> cases ho <;> exact h

namespace World

variable {calls : Nat → Invoker H} {aside : World H → World H → Prop} {w w' : World H}

/-- One thing that can happen next: a method or a function of the interface is called or a class is
initialized, by calls nested in one another to some bound; a class is defined; or the embedding
program does something else. -/
inductive Step (calls : Nat → Invoker H) (aside : World H → World H → Prop) :
    World H → World H → Prop
  | calls {w w' : World H} fuel m receiver args
    (h : (calls fuel m receiver args w).after? = some w') : Step calls aside w w'
  | asks {w w' : World H} fuel env {f args} (hs : Interface.Shaped f args)
    (h : (Interface.callFunction (calls fuel) env f args w : Outcome H Empty _).after? = some w') :
    Step calls aside w w'
  | initializes {w w' : World H} fuel c (h : (Guest.initClass (calls fuel) c w).after? = some w') :
    Step calls aside w w'
  | defines {w : World H} spec : Step calls aside w (w.defineOrKeep spec)
  | aside {w w' : World H} (h : aside w w') : Step calls aside w w'

/-- Some things that happen one after the other. -/
abbrev Steps (calls : Nat → Invoker H) (aside : World H → World H → Prop) :
    World H → World H → Prop := Relation.ReflTransGen (Step calls aside)

/-- What runs keeps `Q`, and what composes and comes of `Q` is kept over whatever happens. -/
theorem Steps.keeps {Q : World H → World H → Prop} (n : AttachmentNeutral Q)
    (hcalls : ∀ fuel, CallsKeep Q (calls fuel)) (p : Composable R)
    (hR : ∀ {w w'}, Q w w' → R w w') (hdefines : ∀ w spec, R w (defineOrKeep w spec))
    (haside : ∀ {w w'}, aside w w' → R w w') (h : Steps calls aside w w') : R w w' := by
  induction h with
  | refl => exact p.refl w
  | tail _ last ih =>
    refine p.trans ih ?_
    cases last with
    | calls fuel m receiver args h => exact hR ((hcalls fuel m receiver args _).of_after? h)
    | asks fuel env hs h =>
      exact hR ((n.returns_callFunction (hcalls fuel) env hs _).leaves.of_after? h)
    | initializes fuel c h => exact hR ((n.initClass (hcalls fuel) c _).of_after? h)
    | defines spec => exact hdefines _ spec
    | aside h => exact haside h

end World

end GuestBoundary
