import GuestBoundary.Interface.BufferAccess
import GuestBoundary.Proofs.Effects.Checks
import GuestBoundary.Proofs.Effects.Evaluation
import GuestBoundary.Proofs.Native.Members

/-!
# Rules for what functions of the interface do

A function of the interface checks its operands, takes steps on the bridge, on classes and objects
and on the references of its thread, and runs guest code.  `StepRules` and `EntryRules` say of a
property of outcomes that it holds after each such step and goes from one action to the next; then it
holds of everything that is made of such steps.  A relation is `EntryNeutral` if it is neutral for guest code
and sees neither the pending throwable nor new local references in the innermost frame; that such a
relation is kept is a property with these rules.  So is what such a relation says up to the end of a
run, together with one that goes on from there (`EntryFinishNeutral`).
-/

namespace GuestBoundary

variable {H ε α β : Type}

/-! ## The rules -/

/-- The outcome of the action has the property, wherever it starts. -/
def Entry.Obeys (P : ∀ {α : Type}, World H → Outcome H EntryError α → Prop) (a : Entry H α) :
    Prop := ∀ w, P w (a w)

/-- The property holds of every step that functions of the interface take on their own, apart from
raising and from opening and closing frames, and of steps in a row. -/
structure StepRules (P : ∀ {α : Type}, World H → Outcome H EntryError α → Prop) : Prop where
  checked : ∀ {α : Type} {w : World H} {o : Outcome H EntryError α}, o.Checked w → P w o
  bind : ∀ {α β : Type} {a : Entry H α} {f : α → Entry H β} {w : World H}, P w (a w) →
    (∀ x w', a w = .ok x w' → P w' (f x w')) → P w ((a >>= f) w)
  /-- What is left to do is done also where the first action failed. -/
  afterwards : ∀ {α : Type} {a : Entry H α} {b : Entry H Unit} {w : World H}, P w (a w) →
    Entry.Obeys P b →
    P w ((do
      let r ← a.result
      b
      Action.ofExcept r) w)
  sameSide : ∀ {α : Type} {w w' : World H} (x : α), World.SameSide w w' → P w (.ok x w')
  bridged : ∀ {α : Type} {w : World H} {b b' : Bridge} (x : α), w.bridge = some b →
    b.Develops b' → P w (.ok x { w with bridge := some b' })
  unattached : ∀ {α : Type} {w : World H}, w.attachment = none →
    P w (.halt .misuse w : Outcome H EntryError α)
  create : ∀ {w : World H} {a : Attachment} {o h locals}, w.attachment = some a →
    a.locals.create o = .ok (h, locals) → P w (.ok h (w.setAttachment (some { a with locals })))
  ensure : ∀ {w : World H} {a : Attachment} {c locals}, w.attachment = some a →
    a.locals.ensure c = .ok locals → P w (.ok () (w.setAttachment (some { a with locals })))
  plain : ∀ {α : Type} {a : Guest H α}, Plain a → Entry.Obeys P (Entry.guest a)

/-- The property also holds of the steps that depend on other threads and on methods; `G` says which
guest code functions of the interface may run. -/
structure EntryRules (G : ∀ {α : Type}, Guest H α → Prop)
    (P : ∀ {α : Type}, World H → Outcome H EntryError α → Prop) : Prop extends StepRules P where
  /-- The monitor of an object is another thread's. -/
  locked : ∀ {α : Type} {w : World H} {o : ObjectRef},
    (w.object o).monitor.enter? w.thread.id = none →
      P w (.halt (.deadlock (.monitor o)) w : Outcome H EntryError α)
  guestRules : GuestRules (H := H) fun a _ => G a
  guest : ∀ {α : Type} {a : Guest H α}, G a → Entry.Obeys P (Entry.guest a)
  plain := fun h => guest (guestRules.plain h)

namespace StepRules

open Entry

variable {P : ∀ {α : Type}, World H → Outcome H EntryError α → Prop} (k : StepRules P)
include k

theorem checks {a : Entry H α} (h : Checks a) : Obeys P a := fun w => k.checked (h w)

theorem andThen {a : Entry H α} {f : α → Entry H β} (ha : Obeys P a) (hf : ∀ x, Obeys P (f x)) :
    Obeys P (a >>= f) := fun w => k.bind (ha w) fun x w' _ => hf x w'

/-- Checks come first. -/
theorem after {a : Entry H α} {f : α → Entry H β} (ha : Checks a) (hf : ∀ x, Obeys P (f x)) :
    Obeys P (a >>= f) := k.andThen (k.checks ha) hf

/-- Checks come first, and what goes on may rely on what they found. -/
theorem afterAt {a : Entry H α} {f : α → Entry H β} {w : World H} (ha : Checks a)
    (hf : ∀ x, a w = .ok x w → P w (f x w)) : P w ((a >>= f) w) := by
  refine k.bind (k.checks ha w) fun x w' h => ?_
  obtain rfl := ha.cases_ok h
  exact hf x h

omit k in
/-- After a look at the state, only that state matters. -/
theorem look {f : World H → Entry H β} (h : ∀ w, P w (f w w)) : Obeys P (Action.world >>= f) := h

/-- An answer is worked out from another one. -/
theorem map {a : Entry H α} {f : α → β} (ha : Obeys P a) :
    Obeys P (a >>= fun x => Pure.pure (f x)) := k.andThen ha fun _ => k.checks (.pure _)

theorem update {f : World H → World H} (h : ∀ w, World.SameSide w (f w)) :
    Obeys P (Action.update f) := fun w => k.sameSide () (h w)

theorem step {f : World H → α × World H} (h : ∀ w, World.SameSide w (f w).2) :
    Obeys P (Action.step f) := fun w => k.sameSide _ (h w)

/-! ## Classes and objects -/

theorem stringObject (units : List Text.Unit16) :
    Obeys P (Guest.newString units : Entry H ObjectRef) :=
  k.step fun w => w.sameSide_newObject _ _

theorem mirror (c : ClassId) : Obeys P (Guest.mirror c : Entry H ObjectRef) := by
  refine k.step fun w => ?_
  split
  · exact .refl w
  · have same : World.SameSide w (w.newObject CoreClass.classObject.id (.mirror c)).2 :=
      w.sameSide_newObject _ _
    exact same.trans (.of_eq rfl (World.sameClasses_setClassState rfl) (.refl _))

theorem reflectMethod (m : MethodRef) : Obeys P (Guest.reflectMethod m : Entry H ObjectRef) :=
  k.step fun w => w.sameSide_newObject _ _

theorem reflectField (f : FieldRef) : Obeys P (Guest.reflectField f : Entry H ObjectRef) :=
  k.step fun w => w.sameSide_newObject _ _

/-! ## The bridge and the attachment -/

theorem onBridge {f : Bridge → Except EntryError (α × Bridge)}
    (develops : ∀ b x b', f b = .ok (x, b') → b.Develops b')
    (own : ∀ b e, f b = .error e → e.IsOwn) : Obeys P (onBridge f) := by
  intro w
  unfold Entry.onBridge
  cases hb : w.bridge with
  | none => exact k.checked (.unbridged hb)
  | some b =>
    dsimp only
    cases hf : f b with
    | ok r => exact k.bridged r.1 hb (develops b r.1 r.2 hf)
    | error e => exact k.checked (.error (own b e hf))

/-- A step on the bridge whose error is renamed to one of the interface's own. -/
theorem onBridgeMapped {f : Bridge → Except ε (α × Bridge)} {g : ε → EntryError}
    (develops : ∀ b x b', f b = .ok (x, b') → b.Develops b') (own : ∀ e, (g e).IsOwn) :
    Obeys P (Entry.onBridge fun b => (f b).mapError g) := by
  refine k.onBridge (fun b x b' h => ?_) fun b e he => ?_
  · cases hf : f b with
    | ok r =>
      rw [hf] at h
      cases h
      exact develops b x b' hf
    | error e' =>
      rw [hf] at h
      cases h
  · cases hf : f b with
    | ok r =>
      rw [hf] at he
      cases he
    | error e' =>
      rw [hf] at he
      cases he
      exact own e'

/-- A native method is bound before it is called. -/
theorem resolve (r : Registry) (m : MethodRef) :
    Obeys P (Entry.onBridge fun b => (b.resolve r m).mapError .bind) :=
  k.onBridgeMapped (fun _ _ _ => .resolve) fun _ => nofun

theorem newLocal (o : Option ObjectRef) : Obeys P (newLocal o : Entry H Handle) := by
  intro w
  unfold Entry.newLocal onAttachment
  cases ha : w.attachment with
  | none => exact k.unattached ha
  | some a =>
    dsimp only
    cases hc : a.locals.create o with
    | ok r => exact k.create ha hc
    | error e => exact k.checked (.error nofun)

theorem classLocal (c : ClassId) : Obeys P (classLocal c : Entry H Handle) :=
  k.andThen (k.mirror c) fun _ => k.newLocal _

theorem methodId (m : MethodRef) : Obeys P (methodId m : Entry H UInt64) := by
  refine k.onBridge (fun b id b' h => ?_) fun _ _ h => by cases h
  cases h
  exact ⟨rfl, .idFor b.methods m, .refl _⟩

theorem fieldId (f : FieldRef) : Obeys P (fieldId f : Entry H UInt64) := by
  refine k.onBridge (fun b id b' h => ?_) fun _ _ h => by cases h
  cases h
  exact ⟨rfl, .refl _, .idFor b.fields f⟩

/-! ## Values -/

theorem arguments (m : MethodRef) (slots : Option (List Slot)) :
    Obeys P (arguments m slots : Entry H (List Value)) := by
  refine k.after .world fun w =>
    k.andThen (k.onBridge (fun b s b' h => ?_) fun b e he => ?_) fun signature => ?_
  · split at h <;> cases h
    exact .of_eq rfl rfl rfl
  · split at he <;> cases he
    exact nofun
  · split
    · exact k.checks (.pure _)
    · cases slots with
      | some slots => exact k.checks (.read _)
      | none => exact k.checks (.fault _ _)

theorem returned (kind : Kind) (v : Value) :
    Obeys P (returned kind v : Entry H Interface.Returned) := by
  refine k.after .bridge fun b => k.after (.ofConversion _) fun v => ?_
  split
  · exact k.map (k.newLocal _)
  · exact k.checks (.pure _)
  · exact k.checks (.pure _)

/-! ## Buffers -/

theorem bufferOf (bytes : List UInt8) : Obeys P (bufferOf bytes : Entry H Address) := by
  refine k.after (.read _) fun host =>
    k.andThen (k.onBridge (fun b a b' h => ?_) fun b e he => ?_) fun _ => ?_
  · split at h <;> cases h
    exact .of_eq rfl rfl rfl
  · split at he <;> cases he
    exact nofun
  · exact k.map (k.update fun _ => .of_eq rfl (.of_eq rfl) (.refl _))

theorem releaseBuffer (a : Address) : Obeys P (releaseBuffer a : Entry H Unit) := by
  refine k.onBridge (fun b x b' h => ?_) fun b e he => ?_
  · split at h <;> cases h
    exact .of_eq rfl rfl rfl
  · split at he <;> cases he
    exact nofun

end StepRules

/-! ## Neutral relations -/

/-- The relation does not see what functions of the interface do on their own, apart from opening
and closing frames and deleting local references. -/
structure EntryNeutral (R : World H → World H → Prop) : Prop extends GuestNeutral R where
  withBridge : ∀ {w : World H} {b b' : Bridge}, w.bridge = some b → b.Develops b' →
    R w { w with bridge := some b' }
  pending : ∀ (w : World H) f, R w (w.updatePending f)
  create : ∀ {w : World H} {a : Attachment} {o h locals}, w.attachment = some a →
    a.locals.create o = .ok (h, locals) → R w (w.setAttachment (some { a with locals }))
  ensure : ∀ {w : World H} {a : Attachment} {c locals}, w.attachment = some a →
    a.locals.ensure c = .ok locals → R w (w.setAttachment (some { a with locals }))

theorem Keeps.guest {R : World H → World H → Prop} {a : Guest H α} (ha : Keeps R a) :
    Keeps R (Entry.guest a) := ha.mapError _

theorem Entry.guest_bind (a : Guest H α) (f : α → Guest H β) :
    Entry.guest (a >>= f) = Entry.guest a >>= fun x => Entry.guest (f x) := by
  funext w
  cases h : a w <;> simp only [Entry.guest, Action.mapError, bind, Action.andThen, h]

theorem Entry.of_guest_ok {a : Guest H α} {x : α} {w w' : World H}
    (h : Entry.guest a w = .ok x w') : a w = .ok x w' := by
  unfold Entry.guest Action.mapError at h
  cases hr : a w <;> rw [hr] at h <;> cases h
  rfl

namespace EntryNeutral

variable {R : World H → World H → Prop} (n : EntryNeutral R)
include n

/-- That the relation is kept has the rules. -/
theorem rules : EntryRules (fun a => Keeps R a) (fun w o => o.Leaves (R w)) where
  checked h := by
    cases h with
    | ok x => exact n.refl _
    | error own => exact n.refl _
    | unbridged hb => trivial
  bind ha hf := Keeps.bind_at n.toComposable ha hf
  afterwards ha hb := Keeps.bind_at n.toComposable (Keeps.result_at ha) fun r w' _ =>
    Keeps.bind_at n.toComposable (hb w') fun _ w'' _ => Keeps.ofExcept n.toComposable r w''
  sameSide _ same := n.sameSide same
  bridged _ hb develops := n.withBridge hb develops
  unattached _ := trivial
  create ha hc := n.create ha hc
  ensure ha he := n.ensure ha he
  locked _ := trivial
  guestRules := n.congruence.toGuestRules
  guest := Keeps.guest

theorem fault (kind : FaultKind) (message : String) :
    Keeps R (Entry.fault kind message : Entry H α) := .fail n.toComposable _

end EntryNeutral

/-! ## Ends of runs -/

/-- The first relation does not see what functions of the interface do on their own, apart from
opening and closing frames and deleting local references.  The second one goes from there to the end
of the run. -/
structure EntryFinishNeutral (R Q : World H → World H → Prop) : Prop extends Composes R Q where
  sameSide : ∀ {w w'}, World.SameSide w w' → R w w'
  initClass : ∀ {call : Invoker H}, CallsFinish R Q call →
    ∀ c, Finishes R Q (Guest.initClass call c)
  withBridge : ∀ {w : World H} {b b' : Bridge}, w.bridge = some b → b.Develops b' →
    R w { w with bridge := some b' }
  pending : ∀ (w : World H) f, R w (w.updatePending f)
  create : ∀ {w : World H} {a : Attachment} {o h locals}, w.attachment = some a →
    a.locals.create o = .ok (h, locals) → R w (w.setAttachment (some { a with locals }))
  ensure : ∀ {w : World H} {a : Attachment} {c locals}, w.attachment = some a →
    a.locals.ensure c = .ok locals → R w (w.setAttachment (some { a with locals }))

/-- Nothing is asked of runs that are over. -/
theorem EntryNeutral.finishNeutral {R : World H → World H → Prop} (n : EntryNeutral R) :
    EntryFinishNeutral R fun _ _ => True where
  toComposes := n.toComposable.composes_true
  sameSide := n.sameSide
  initClass hcall c := finishes_true_iff.2 (n.initClass hcall.keep c)
  withBridge := n.withBridge
  pending := n.pending
  create := n.create
  ensure := n.ensure

namespace EntryFinishNeutral

variable {R Q : World H → World H → Prop} (n : EntryFinishNeutral R Q)
include n

theorem still {a : Action H ε α} (h : Still a) : Finishes R Q a := by
  intro w
  obtain ⟨hleaves, hsettles⟩ := h w
  cases hr : a w with
  | halt r w' =>
    rw [hr] at hsettles
    exact hsettles.elim
  | _ =>
    rw [hr] at hleaves
    exact n.sameSide hleaves

theorem holding {a : Action H ε α} (objects : List ObjectRef) (ha : Finishes R Q a) :
    Finishes R Q (Action.holding objects a) := by
  intro w
  have hbefore : R w { w with held := objects ++ w.held } :=
    n.sameSide (.of_eq rfl (.of_eq rfl) (.refl _))
  have hinside := (ha _).after n.toComposes hbefore
  refine Finishes.andFinally_at (hinside.mono (fun w' h => ?_) fun _ => id)
  exact n.trans h (n.sameSide (.of_eq rfl (.of_eq rfl) (.refl _)))

/-- How the second action ends does not matter. -/
theorem congruence : GuestCongruence (H := H) fun a _ => Finishes R Q a where
  plain h := n.still h.still
  bind := .bind n.toComposes
  holding := n.holding
  initClass hcall := n.initClass hcall
  fail o := .fail n.toComposes o
  panic m := n.still (.panic m)
  result := .result

/-- How functions of the interface finish has the rules. -/
theorem rules : EntryRules (fun a => Finishes R Q a) (fun w o => o.Finishes (R w) (Q w)) where
  checked h := by
    cases h with
    | ok x => exact n.refl _
    | error own => exact n.refl _
    | unbridged hb => exact n.ends (n.refl _)
  bind ha hf := Finishes.bind_at n.toComposes ha hf
  afterwards ha hb := Finishes.bind_at n.toComposes (Finishes.result_at ha) fun r w' _ =>
    Finishes.bind_at n.toComposes (hb w') fun _ w'' _ => Finishes.ofExcept n.toComposes r w''
  sameSide _ same := n.sameSide same
  bridged _ hb develops := n.withBridge hb develops
  unattached _ := n.ends (n.refl _)
  create ha hc := n.create ha hc
  ensure ha he := n.ensure ha he
  locked _ := n.ends (n.refl _)
  guestRules := n.congruence.toGuestRules
  guest ha := ha.mapError _

theorem throwable (e : EntryError) : Finishes R Q (Entry.throwable e : Action H ε ObjectRef) := by
  unfold Entry.throwable
  split
  · exact .pure n.toComposes _
  · exact .step fun w => n.sameSide (w.sameSide_materialize _)
  · exact .halt n.toComposes _

theorem updatePending (f : Pending ObjectRef → Pending ObjectRef) :
    Finishes R Q (Action.update fun w => w.updatePending f : Action H ε Unit) :=
  .update fun w => n.pending w f

end EntryFinishNeutral

end GuestBoundary
