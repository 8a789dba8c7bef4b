import GuestBoundary.Interface.Call
import GuestBoundary.Proofs.Effects.Guest

/-!
# What calls of the interface come to

From a state in which the operands are known, each check comes to one outcome: it answers the
object, class, method or arguments, or it fails with an error that native code is told about.  The
bridge may keep another signature afterwards; nothing else changes (`World.Alike`).
-/

namespace GuestBoundary

variable {H ε α β : Type}

/-! ## The parts of an action -/

namespace Action

variable {a : Action H ε α} {objects : List ObjectRef} {w w' : World H}

theorem holding_error {e : ε} (h : a { w with held := objects ++ w.held } = .error e w') :
    holding objects a w = .error e { w' with held := w.held } := by
  rw [holding, andFinally, h]

theorem holding_halt {reason : Halt}
    (h : a { w with held := objects ++ w.held } = .halt reason w') :
    holding objects a w = .halt reason w' := by
  rw [holding, andFinally, h]

end Action

/-! ## Operands -/

/-- The error becomes a throwable, and does not end the run. -/
def EntryError.IsRaised (e : EntryError) : Prop := ∀ v, e ≠ .contract v

theorem EntryError.isRaised_fault (f : GuestFault) : (EntryError.fault f).IsRaised := by
  intro v h
  cases h

theorem EntryError.isRaised_thrown (o : ObjectRef) : (EntryError.thrown o).IsRaised := by
  intro v h
  cases h

theorem EntryError.isRaised_bind (e : BindError) : (EntryError.bind e).IsRaised := by
  intro v h
  cases h

namespace World

/-- The class that a handle stands for. -/
def namedClass? (w : World H) (h : Handle) : Option ClassId :=
  (w.resolve h).bind fun o => (w.object o).mirrored?

/-- Classes, objects, the running thread and what handles stand for are the same. -/
structure Alike (w w' : World H) : Prop where
  registry : w'.registry = w.registry
  states : w'.states = w.states
  heap : w'.heap = w.heap
  thread : w'.thread = w.thread
  resolve : ∀ h, w'.resolve h = w.resolve h

theorem Alike.classOf {w w' : World H} (s : Alike w w') (o : ObjectRef) :
    w'.classOf o = w.classOf o := by
  rw [World.classOf, object, s.heap]
  rfl

theorem Alike.namedClass? {w w' : World H} (s : Alike w w') (h : Handle) :
    w'.namedClass? h = w.namedClass? h := by
  unfold World.namedClass? object
  rw [s.resolve, s.heap]

theorem pending_setPending {w : World H} (ha : w.attachment.isSome = true) (o : ObjectRef) :
    (w.setPending o).pending = some o := by
  obtain ⟨a, ha⟩ := Option.isSome_iff_exists.1 ha
  rw [setPending, updatePending, ha]
  rfl

theorem Alike.refl (w : World H) : Alike w w := ⟨rfl, rfl, rfl, rfl, fun _ => rfl⟩

/-- Handles are resolved against the references of a bridge only. -/
theorem alike_withBridge {w : World H} {b b' : Bridge} (hb : w.bridge = some b)
    (hglobals : b'.globals = b.globals) : Alike w { w with bridge := some b' } := by
  have halive : World.isAlive { w with bridge := some b' } = w.isAlive := by
    funext o
    unfold isAlive roots
    rw [hb]
    simp only [hglobals]
    rfl
  refine ⟨rfl, rfl, rfl, rfl, fun h => ?_⟩
  unfold World.resolve
  rw [halive, hb]
  simp only [Option.bind_some, hglobals]
  rfl

end World

namespace Entry

open Interface

variable {w : World H} {b : Bridge} {h : Handle}

theorem guest_ok {a : Guest H α} {x : α} {w' : World H} (ha : a w = .ok x w') :
    guest a w = .ok x w' := by
  rw [guest, Action.mapError, ha]

theorem guest_error {a : Guest H α} {o : ObjectRef} {w' : World H} (ha : a w = .error o w') :
    guest a w = .error (.thrown o) w' := by
  rw [guest, Action.mapError, ha]

theorem guest_halt {a : Guest H α} {reason : Halt} {w' : World H} (ha : a w = .halt reason w') :
    guest a w = .halt reason w' := by
  rw [guest, Action.mapError, ha]

theorem guest_congr {a a' : Guest H α} (h : a w = a' w) : guest a w = guest a' w := by
  rw [guest, guest, Action.mapError, Action.mapError, h]

theorem world_eq : (Action.world w : Outcome H EntryError _) = .ok w w := rfl

theorem object_eq : object h w = .ok (w.resolve h) w := rfl

theorem require_some {o : ObjectRef} {what : String} (ho : w.resolve h = some o) :
    require h what w = .ok o w := by
  rw [require, Action.bind_ok object_eq, ho]
  rfl

theorem require_none {what : String} (ho : w.resolve h = none) :
    require h what w = .error (.fault ⟨.nullPointer, what ++ " is null"⟩) w := by
  rw [require, Action.bind_ok object_eq, ho]
  rfl

theorem classOf_some {c : ClassId} (hc : w.namedClass? h = some c) : classOf h w = .ok c w := by
  obtain ⟨o, ho, hc⟩ := Option.bind_eq_some_iff.1 hc
  rw [classOf, Action.bind_ok (require_some ho), Action.bind_ok world_eq, hc]
  rfl

theorem classOf_none (hc : w.namedClass? h = none) : ∃ f, classOf h w = .error (.fault f) w := by
  cases ho : w.resolve h with
  | none => exact ⟨_, Action.bind_error (require_none ho)⟩
  | some o =>
    rw [World.namedClass?, ho, Option.bind_some] at hc
    refine ⟨⟨.illegalArgument, w.dottedName o ++ " is not a class"⟩, ?_⟩
    rw [classOf, Action.bind_ok (require_some ho), Action.bind_ok world_eq, hc]
    rfl

theorem onBridge_ok {f : Bridge → Except EntryError (α × Bridge)} {x : α} {b' : Bridge}
    (hb : w.bridge = some b) (hf : f b = .ok (x, b')) :
    onBridge f w = .ok x { w with bridge := some b' } := by
  unfold onBridge
  simp only [hb, hf]

theorem onBridge_error {f : Bridge → Except EntryError (α × Bridge)} {e : EntryError}
    (hb : w.bridge = some b) (hf : f b = .error e) : onBridge f w = .error e w := by
  unfold onBridge
  simp only [hb, hf]

theorem onBridge_none {f : Bridge → Except EntryError (α × Bridge)} (hb : w.bridge = none) :
    onBridge f w = .halt .misuse w := by
  unfold onBridge
  simp only [hb]

theorem releaseBuffer_ok {a : Address} {n : Nat} {buffers : Buffers} (hb : w.bridge = some b)
    (hrelease : b.buffers.release a = .ok (n, buffers)) :
    releaseBuffer a w = .ok () { w with bridge := some { b with buffers } } :=
  onBridge_ok hb (by rw [hrelease])

theorem withBridge_self (hb : w.bridge = some b) : { w with bridge := some b } = w := by
  cases w
  cases hb
  rfl

theorem bridge_eq (hb : w.bridge = some b) : bridge w = .ok b w := by
  rw [bridge, onBridge_ok hb rfl, withBridge_self hb]

theorem bridge_none (hb : w.bridge = none) : bridge w = .halt .misuse w := onBridge_none hb

theorem method_eq {id : UInt64} {m : MethodRef} (hb : w.bridge = some b)
    (hm : b.methods.find id = .ok m) : method id w = .ok m w := by
  rw [method, Action.bind_ok (bridge_eq hb), hm]
  rfl

theorem field_eq {id : UInt64} {f : FieldRef} (hb : w.bridge = some b)
    (hf : b.fields.find id = .ok f) : field id w = .ok f w := by
  rw [field, Action.bind_ok (bridge_eq hb), hf]
  rfl

/-- Reading arguments changes nothing but the cache of signatures. -/
theorem arguments_cases (m : MethodRef) (slots : Option (List Slot)) (hb : w.bridge = some b) :
    ∃ w', World.Alike w w' ∧ ((∃ args, arguments m slots w = .ok args w') ∨
      ∃ e : EntryError, e.IsRaised ∧ arguments m slots w = .error e w') := by
  unfold arguments
  rw [Action.bind_ok world_eq]
  cases hs : b.signatures.get (w.registry.method m).descriptor with
  | error cause =>
    refine ⟨w, .refl w, .inr ⟨_, EntryError.isRaised_bind (.descriptor cause), ?_⟩⟩
    exact Action.bind_error (onBridge_error hb (by rw [hs]))
  | ok found =>
    obtain ⟨s, signatures⟩ := found
    let b' : Bridge := { b with signatures }
    refine ⟨{ w with bridge := some b' }, World.alike_withBridge hb rfl, ?_⟩
    rw [Action.bind_ok (onBridge_ok hb (show _ = Except.ok (s, b') by rw [hs]))]
    by_cases hempty : s.params.isEmpty = true
    · rw [if_pos hempty]
      exact .inl ⟨_, rfl⟩
    · rw [if_neg hempty]
      cases slots with
      | some slots => exact .inl ⟨_, rfl⟩
      | none => exact .inr ⟨_, EntryError.isRaised_fault _, rfl⟩

end Entry

/-! ## The guard -/

namespace Interface

section Contain

variable {w w' : World H} {name : String} {failure : Answer} {body body' : Entry H Answer}

theorem contain_congr (h : body w = body' w) :
    (contain name failure body w : Outcome H ε Answer) = contain name failure body' w := by
  unfold contain
  rw [h]

theorem contain_halt {reason : Halt} (h : body w = .halt reason w') :
    (contain name failure body w : Outcome H ε Answer) = .halt reason w' := by
  unfold contain
  rw [h]

/-- What is raised is pending afterwards. -/
theorem contain_raised {e : EntryError} (he : e.IsRaised) (ha : w'.attachment.isSome = true) :
    ∃ w'', w''.pending.isSome = true ∧ ∀ {body : Entry H Answer} {w}, body w = .error e w' →
      (contain name failure body w : Outcome H ε Answer) = .ok failure w'' := by
  obtain ⟨o, w₁, hthread, hthrow⟩ : ∃ o w₁, w₁.thread = w'.thread ∧
      (Entry.throwable e w' : Outcome H ε ObjectRef) = .ok o w₁ := by
    unfold Entry.throwable
    cases e with
    | thrown o => exact ⟨o, w', rfl, rfl⟩
    | contract v => exact absurd rfl (he v)
    | fault f => exact ⟨_, _, (w'.sameSide_materialize f).thread, rfl⟩
    | alloc cause => exact ⟨_, _, (w'.sameSide_materialize _).thread, rfl⟩
    | conversion cause => exact ⟨_, _, (w'.sameSide_materialize _).thread, rfl⟩
    | bind cause => exact ⟨_, _, (w'.sameSide_materialize _).thread, rfl⟩
  refine ⟨w₁.setPending o, ?_, fun {body w} h => ?_⟩
  · rw [World.attachment, ← hthread] at ha
    rw [World.pending_setPending ha]
    rfl
  · unfold contain
    rw [h]
    exact Action.bind_ok hthrow

end Contain

/-- The environment of the running thread. -/
def ownEnv (w : World H) : Option Env := w.attachment.map fun a => ⟨w.thread.id, a.serial⟩

/-- A call of the running thread in its own environment. -/
def ask (call : Invoker H) (f : Function) (args : List Argument) : Action H Empty Answer := fun w =>
  callFunction call (ownEnv w) f args w

theorem checkEnv_own {w : World H} (ha : w.attachment.isSome = true) :
    (checkEnv (ownEnv w) w : Outcome H ε Unit) = .ok () w := by
  obtain ⟨a, ha⟩ := Option.isSome_iff_exists.1 ha
  rw [ownEnv, ha]
  show (if w.thread.id ≠ w.thread.id then _ else
    if (w.attachment.any fun a' => a'.serial == a.serial) = true then _ else _ :
      Action H ε Unit) w = _
  rw [if_neg (fun h => h rfl), if_pos (by simp [ha])]
  rfl

theorem callFunction_own {w : World H} {f : Function} {args : List Argument}
    (ha : w.attachment.isSome = true) (call : Invoker H) :
    (callFunction call (ownEnv w) f args w : Outcome H ε Answer) =
      contain f.name (.plain f.failure) (perform call f args) w := by
  rw [callFunction, guarded, Action.bind_ok (checkEnv_own ha)]

/-- A function that does not raise answers as it stands. -/
theorem callFunction_done {w w' : World H} {f : Function} {args : List Argument}
    {call : Invoker H} {answer : Answer} (ha : w.attachment.isSome = true)
    (hbody : perform call f args w = .ok answer w') :
    (callFunction call (ownEnv w) f args w : Outcome H ε Answer) = .ok answer w' := by
  rw [callFunction_own ha call]
  unfold contain
  rw [hbody]

/-- A broken rule ends the run. -/
theorem callFunction_violation {w w' : World H} {f : Function} {args : List Argument}
    {call : Invoker H} {v : ContractViolation} (ha : w.attachment.isSome = true)
    (hbody : perform call f args w = .error (.contract v) w') :
    (callFunction call (ownEnv w) f args w : Outcome H ε Answer) = .halt (.violation v) w' := by
  rw [callFunction_own ha call]
  unfold contain
  rw [hbody]
  rfl

/-- A function that raises answers its failure, and a throwable is pending. -/
theorem callFunction_raised {w w₁ : World H} {f : Function} {args : List Argument}
    {call : Invoker H} {e : EntryError} (ha : w.attachment.isSome = true)
    (ha₁ : w₁.attachment.isSome = true) (he : e.IsRaised)
    (hbody : perform call f args w = .error e w₁) :
    ∃ w', (callFunction call (ownEnv w) f args w : Outcome H ε Answer) =
      .ok (.plain f.failure) w' ∧ w'.pending.isSome = true := by
  obtain ⟨w', hpending, h⟩ := contain_raised he ha₁
  exact ⟨w', (callFunction_own ha call).trans (h hbody), hpending⟩

end Interface

end GuestBoundary
