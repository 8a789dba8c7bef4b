import GuestBoundary.Proofs.Effects.Call
import GuestBoundary.Proofs.Exceptions.Strict
import GuestBoundary.Proofs.Interface.Failures

/-!
# What is pending after a call of the interface

The body of a function is conducted, apart from the functions that set the pending throwable, which
do so where they answer.  So a call of the interface goes one of three ways (`Guarded`): it answers,
and what is pending is what was, or nothing; it answers its failure, and a throwable is pending; or
the run is over.
-/

namespace GuestBoundary

variable {H ε α : Type}

open World Interface

/-! ## Rules -/

namespace Entry

/-- What a function may fail with: an error of its own or, if the run is strict, a throwable. -/
def MayFail (strict : Bool) (e : EntryError) (w : World H) : Prop :=
  strict = true → ∀ o, e = .thrown o → w.IsThrowable o

theorem mayFail_of_isOwn {strict : Bool} {e : EntryError} (own : e.IsOwn) (w : World H) :
    MayFail strict e w := fun _ o he => absurd he (own o)

/-- The outcome is conducted, provided that the thread is attached and that calls may be nested `n`
deep. -/
def Conducted (strict : Bool) (n : Nat) {α : Type} (w : World H) (o : Outcome H EntryError α) :
    Prop :=
  w.Prepared strict n → w.attachment.isSome = true → o.Conducted strict (MayFail strict) w

/-- Being conducted is a property with the rules of the interface. -/
theorem entry_rules (strict : Bool) (n : Nat) :
    EntryRules (H := H) (fun a => Guest.Conducts strict strict n a) (Conducted strict n) where
  checked h hw ha := by
    cases h with
    | ok x => exact .refl _
    | error own => exact ⟨.refl _, mayFail_of_isOwn own _⟩
    | unbridged hb => exact absurd hb (hw.bridge_ne_none ha)
  bind ha hf hw hattached := (ha hw hattached).bind fun x w' h hcalm =>
    hf x w' h (hw.calm hcalm) (hcalm.isSome hattached)
  afterwards ha hb hw hattached := by
    refine (ha hw hattached).result_bind (fun x v hcalm => ?_) fun e v hcalm hfail => ?_
    · exact (hb v (hw.calm hcalm) (hcalm.isSome hattached)).bind fun _ v' _ _ => .refl v'
    · refine (hb v (hw.calm hcalm) (hcalm.isSome hattached)).bind fun _ v' _ hcalm' => ?_
      refine ⟨.refl v', fun hstrict o ho => ?_⟩
      exact hcalm'.isThrowable (hw.calm hcalm).throwables (hfail hstrict o ho)
  sameSide _ same _ _ := same.calm
  bridged _ _ _ _ _ := .of_thread rfl rfl rfl (fun _ => rfl) (.refl _) (.refl _)
  unattached hnone _ ha := by
    rw [hnone] at ha
    cases ha
  create ha _ _ _ := .of_attachment ha rfl (.inl rfl)
  ensure ha _ _ _ := .of_attachment ha rfl (.inl rfl)
  locked h _ _ := withholds_monitor h
  guestRules := Guest.guest_rules strict strict n
  guest ha w hw _ := (ha w hw).mapError fun o w' hthrown hstrict o' ho' => by
    cases ho'
    exact hthrown hstrict

section Functions

variable {strict : Bool} {n : Nat} {call : Invoker H}

/-- A step on the local references. -/
theorem conducted_onAttachment {f : Attachment → Except EntryError (α × Attachment)}
    (own : ∀ a e, f a = .error e → e.IsOwn)
    (same : ∀ a x a', f a = .ok (x, a') → a'.serial = a.serial ∧ a'.pending = a.pending) :
    Obeys (Conducted strict n) (onAttachment f : Entry H α) := by
  intro w _ hattached
  obtain ⟨a, ha⟩ := Option.isSome_iff_exists.1 hattached
  unfold onAttachment
  cases hf : f a with
  | ok r =>
    simp only [ha, hf]
    obtain ⟨hserial, hpending⟩ := same a r.1 r.2 hf
    exact .of_attachment ha hserial (.inl (congrArg Pending.slot hpending))
  | error e =>
    simp only [ha, hf]
    exact ⟨.refl w, mayFail_of_isOwn (own a e hf) w⟩

theorem conducted_deleteLocalRef (h : Handle) :
    Obeys (Conducted strict n) (deleteLocalRef h : Entry H Unit) := by
  unfold deleteLocalRef
  split
  · exact (entry_rules strict n).checks (.pure _)
  · refine conducted_onAttachment (fun a e he => ?_) fun a x a' hf => ?_
    · split at he <;> cases he
      exact nofun
    · split at hf <;> cases hf
      exact ⟨rfl, rfl⟩

theorem conducted_pushFrame (capacity : Nat) :
    Obeys (Conducted strict n) (pushFrame capacity : Entry H Unit) := by
  refine conducted_onAttachment (fun a e he => ?_) fun a x a' hf => ?_
  · split at he <;> cases he
    exact nofun
  · split at hf <;> cases hf
    exact ⟨rfl, rfl⟩

theorem conducted_popFrame (result : Option ObjectRef) :
    Obeys (Conducted strict n) (popFrame result : Entry H Handle) := by
  have k := entry_rules (H := H) strict n
  refine k.andThen (conducted_onAttachment (fun a e he => ?_) fun a x a' hf => ?_)
    fun promoted => ?_
  · split at he <;> cases he
    exact nofun
  · split at hf <;> cases hf
    exact ⟨rfl, rfl⟩
  · cases promoted with
    | ok h => exact k.checks (.pure h)
    | error e => exact k.checks fun _ => .error nofun

theorem conducted_pushLocalFrame (c : Int32) :
    Obeys (Conducted strict n) (pushLocalFrame c : Entry H Unit) :=
  (entry_rules strict n).after (.capacity c) fun c => conducted_pushFrame c

theorem conducted_popLocalFrame (h : Handle) :
    Obeys (Conducted strict n) (popLocalFrame h : Entry H Handle) :=
  (entry_rules strict n).after (.object h) fun o => conducted_popFrame o

theorem conducted_exceptionClear :
    Obeys (Conducted strict n) (exceptionClear : Entry H Unit) := by
  intro w _ hattached
  obtain ⟨a, ha⟩ := Option.isSome_iff_exists.1 hattached
  show w.Calm (w.updatePending Pending.clear)
  rw [updatePending, ha]
  exact .of_attachment ha rfl (.inr rfl)

/-- Whatever comes of the report, what was pending is pending again. -/
theorem conducted_exceptionDescribe (hcall : Guest.CallsConduct strict strict n call) :
    Obeys (Conducted strict n) (exceptionDescribe call) := by
  intro w hw hattached
  have hcleared : w.Calm (w.updatePending Pending.clear) :=
    conducted_exceptionClear (n := n) w hw hattached
  have hreport : ∀ o v, w.Calm v → Outcome.Conducted strict (MayFail strict) v
      ((discard (Action.holding [o] (report call o).result) : Entry H Unit) v) := by
    intro o v hv
    have hheld : v.Calm { v with held := [o] ++ v.held } := .of_eq rfl (.refl _) (.refl _)
    have hran := (Guest.guest_rules strict strict n).report hcall o _ (hw.calm (hv.trans hheld))
    exact .bind (.holding hran.result fun _ _ _ h => h) fun _ v' _ _ => .refl v'
  have hread : (Action.read World.pending : Entry H _) w = .ok w.pending w := rfl
  rw [exceptionDescribe, Action.bind_ok hread]
  cases hp : w.pending with
  | none => exact .refl w
  | some o =>
    refine .bind_from hcleared fun _ v _ hv => .bind_from ((hreport o v hv).after hv) ?_
    refine fun _ v' _ hv' => ⟨hv'.toContinues.trans (.of_updatePending v' _), .inl ?_⟩
    rw [hp]
    exact pending_setPending (hv'.isSome hattached) o

end Functions

/-! ## The throwable of an error -/

/-- An error becomes a throwable, unless it is a broken rule. -/
theorem throwable_cases {strict : Bool} {e : EntryError} {w : World H} (hw : Sound strict w)
    (he : MayFail strict e w) :
    (∃ v, (Entry.throwable e w : Outcome H ε ObjectRef) = .halt (.violation v) w) ∨
      ∃ o w', (Entry.throwable e w : Outcome H ε ObjectRef) = .ok o w' ∧ w.Calm w' ∧
        (strict = true → w'.IsThrowable o) := by
  have hfault : ∀ f : GuestFault, e.surface = .fault f → ∃ o w',
      (Entry.throwable e w : Outcome H ε ObjectRef) = .ok o w' ∧ w.Calm w' ∧
        (strict = true → w'.IsThrowable o) := by
    intro f hf
    refine ⟨_, _, ?_, (w.sameSide_materialize f).calm, fun _ =>
      isThrowable_materialize hw.throwables f⟩
    rw [Entry.throwable, hf]
    rfl
  cases e with
  | thrown o => exact .inr ⟨o, w, rfl, .refl w, fun hstrict => he hstrict o rfl⟩
  | contract v => exact .inl ⟨v, rfl⟩
  | fault f => exact .inr (hfault f rfl)
  | alloc cause => exact .inr (hfault _ rfl)
  | conversion cause => exact .inr (hfault _ rfl)
  | bind cause => exact .inr (hfault _ rfl)

end Entry

namespace Interface

open Entry

/-! ## Functions -/

/-- Whether the function sets the pending throwable where it answers. -/
def Function.setsPending : Function → Bool
  | throw | throwNew => true
  | _ => false

/-- What is pending after a function that answered: what was, or nothing, unless the function set
it and answers that all is well. -/
def Function.Leaves (f : Function) (w : World H) (answer : Answer) (w' : World H) : Prop :=
  if f.setsPending then answer = .plain (.status .ok) ∧ w'.pending.isSome = true
  else w'.pending = w.pending ∨ w'.pending = none

/-- Native code passes a value. -/
def Argument.IsValue : Argument → Prop
  | .handle _ | .primitive _ => True
  | _ => False

/-- The function answered and left pending what it says, or it is conducted. -/
def Performed (strict : Bool) (leaves : Answer → World H → Prop) (w : World H) :
    Outcome H EntryError Answer → Prop
  | .ok answer w' => w.Continues w' ∧ Sound strict w' ∧ leaves answer w'
  | .error e w' => w.Calm w' ∧ MayFail strict e w'
  | .panic _ w' => w.Calm w'
  | .halt r w' => r.Excused strict w'

section Perform

variable {strict : Bool} {n : Nat} {call : Invoker H} {w : World H}

theorem performed_of_conducted {o : Outcome H EntryError Answer} {leaves : Answer → World H → Prop}
    (hw : Sound strict w) (h : o.Conducted strict (MayFail strict) w)
    (hleaves : ∀ answer w', w.Calm w' → leaves answer w') : Performed strict leaves w o := by
  cases o with
  | ok answer w' => exact ⟨h.toContinues, hw.calm h, hleaves answer w' h⟩
  | error e w' => exact h
  | panic m w' => exact h
  | halt r w' => exact h

/-- A function that makes an object pending, and answers that all is well. -/
theorem performed_setting {a : Entry H Unit} {sought : Entry H ObjectRef} {f : Function}
    (hf : f.setsPending = true)
    (heq : a = sought >>= fun o => Action.update fun w => w.setPending o)
    (hw : Sound strict w) (hattached : w.attachment.isSome = true)
    (hsought : (sought w).Conducted strict (MayFail strict) w)
    (hthrowable : ∀ o w', sought w = .ok o w' → strict = true → w'.IsThrowable o) :
    Performed strict (f.Leaves w) w (answerStatus a w) := by
  rw [answerStatus, heq]
  cases hr : sought w with
  | ok o w' =>
    rw [hr] at hsought
    have hset : (sought >>= fun o => Action.update fun w => w.setPending o) w =
        .ok () (w'.setPending o) := Action.bind_ok hr
    rw [Action.bind_ok hset]
    refine ⟨hsought.toContinues.trans (.of_updatePending w' _),
      (hw.calm hsought).setPending (hthrowable o w' hr), ?_⟩
    rw [Function.Leaves, if_pos hf, pending_setPending (hsought.isSome hattached)]
    exact ⟨rfl, rfl⟩
  | error e w' =>
    rw [hr] at hsought
    rw [Action.bind_error (Action.bind_error hr)]
    exact hsought
  | panic m w' =>
    rw [hr] at hsought
    rw [Action.bind_panic (Action.bind_panic hr)]
    exact hsought
  | halt r w' =>
    rw [hr] at hsought
    rw [Action.bind_halt (Action.bind_halt hr)]
    exact hsought

/-- The throwable that a handle stands for. -/
def thrownObject (h : Handle) : Entry H ObjectRef := do
  let o ← require h "throwable"
  let w ← Action.world
  if w.isInstance o CoreClass.throwable.id then return o
  else fault .illegalArgument (w.dottedName o ++ " is not throwable")

theorem checks_thrownObject (h : Handle) : Checks (thrownObject h : Entry H ObjectRef) :=
  (Checks.require h _).bind fun _ => Checks.world.bind fun _ => (Checks.pure _).ite (.fault _ _)

theorem isThrowable_of_thrownObject {h : Handle} {o : ObjectRef} {w' : World H}
    (hr : thrownObject h w = .ok o w') : w'.IsThrowable o := by
  obtain ⟨o', w₁, -, hr⟩ := Action.of_bind_ok hr
  obtain ⟨_, w₂, hworld, hr⟩ := Action.of_bind_ok hr
  cases hworld
  split at hr
  case isTrue hthrowable =>
    cases hr
    exact hthrowable
  case isFalse => cases hr

theorem throw_eq (h : Handle) : (throw h : Entry H Unit) =
    thrownObject h >>= fun o => Action.update fun w => w.setPending o := by
  unfold throw thrownObject
  rw [Action.bind_assoc]
  refine congrArg _ (funext fun o => ?_)
  rw [Action.bind_assoc]
  refine congrArg _ (funext fun w => ?_)
  split <;> rfl

theorem throwNew_eq (h : Handle) (message : Option (List UInt8)) :
    throwNew call h message = (do
      let c ← classOf h
      guest (Guest.newThrowable call c (message.map Text.Modified.text))) >>= fun o =>
        Action.update fun w => w.setPending o := by
  rw [Action.bind_assoc]
  rfl

/-- Every function does what it says to what is pending. -/
theorem performed_perform (hcall : Guest.CallsConduct strict strict n call)
    (hw : w.Prepared strict n) (hattached : w.attachment.isSome = true) {f : Function}
    {args : List Argument} (hs : Shaped f args)
    (hvalue : ∀ value, storedArgument? f args = some value → value.IsValue) :
    Performed strict (f.Leaves w) w (perform call f args w) := by
  have k := entry_rules (H := H) strict n
  have hcalm : f.setsPending = false → Obeys (Conducted strict n) (perform call f args) →
      Performed strict (f.Leaves w) w (perform call f args w) := by
    refine fun hf h => performed_of_conducted hw.toSound (h w hw hattached) fun _ w' hcalm => ?_
    rw [Function.Leaves, if_neg (by rw [hf]; nofun)]
    exact hcalm.pending
  by_cases hplain : f.isPlain = true
  · refine hcalm ?_ (obeys_perform k hcall hs hplain fun value hv => ?_)
    · cases f <;> first | rfl | cases hplain
    · have := hvalue value hv
      cases value with
      | handle h => exact k.map (k.checks (.object h))
      | primitive v => exact k.checks (.pure v)
      | _ => cases this
  · cases hs with
    | deleteLocalRef h => exact hcalm rfl (k.map (conducted_deleteLocalRef h))
    | pushLocalFrame c => exact hcalm rfl (k.map (conducted_pushLocalFrame c))
    | popLocalFrame h => exact hcalm rfl (k.map (conducted_popLocalFrame h))
    | exceptionDescribe => exact hcalm rfl (k.map (conducted_exceptionDescribe hcall))
    | exceptionClear => exact hcalm rfl (k.map conducted_exceptionClear)
    | throw h =>
      exact performed_setting rfl (throw_eq h) hw.toSound hattached
        (k.checks (checks_thrownObject h) w hw hattached) fun o w' hr _ =>
          isThrowable_of_thrownObject hr
    | throwNew h message =>
      refine performed_setting rfl (throwNew_eq h message) hw.toSound hattached
        (k.after (.classOf h) (fun c => k.newThrowable hcall c _) w hw hattached)
        fun o w' hr _ => ?_
      obtain ⟨c, v, hc, hnew⟩ := Action.of_bind_ok hr
      obtain rfl := (Checks.classOf h).cases_ok hc
      exact Guest.isThrowable_of_newThrowable hcall hw (of_guest_ok hnew)
    | _ => exact absurd rfl hplain

end Perform

/-! ## The guard -/

/-- Where a call of a function goes whose body came to an outcome: the run is over; or the call
raises, answers `failure`, and something is pending; or it answers, and what is pending is what the
function leaves. -/
inductive Guarded (strict : Bool) (failure : Answer) (leaves : Answer → World H → Prop)
    (body : Outcome H EntryError Answer) (w : World H) : Outcome H ε Answer → Prop
  | stopped {r : Halt} {w' : World H} (h : r.Excused strict w') :
    Guarded strict failure leaves body w (.halt r w')
  | raised {w' : World H} {o : ObjectRef} (raises : body.Raises) (continues : w.Continues w')
    (sound : Sound strict w') (pending : w'.pending = some o) :
    Guarded strict failure leaves body w (.ok failure w')
  | completed {answer : Answer} {w' : World H} (answers : body = .ok answer w')
    (continues : w.Continues w') (sound : Sound strict w') (left : leaves answer w') :
    Guarded strict failure leaves body w (.ok answer w')

section Guard

variable {strict : Bool} {failure : Answer} {leaves : Answer → World H → Prop} {w : World H}
  {body : Entry H Answer} (hw : Sound strict w) (hattached : w.attachment.isSome = true)
  (hbody : Performed strict leaves w (body w))
include hw hattached hbody

theorem guarded_contain (name : String) :
    Guarded strict failure leaves (body w) w
      (contain name failure body w : Outcome H ε Answer) := by
  have hraised : ∀ {v o}, (body w).Raises → w.Calm v → (strict = true → v.IsThrowable o) →
      Guarded strict failure leaves (body w) w
        (.ok failure (v.setPending o) : Outcome H ε Answer) := fun hraises hv ho =>
    .raised hraises (hv.toContinues.trans (.of_updatePending _ _)) ((hw.calm hv).setPending ho)
      (pending_setPending (hv.isSome hattached) _)
  cases hr : body w with
  | ok answer w' =>
    rw [hr] at hbody
    have hcontain : (contain name failure body w : Outcome H ε Answer) = .ok answer w' := by
      rw [contain, hr]
    rw [hcontain]
    exact .completed rfl hbody.1 hbody.2.1 hbody.2.2
  | error e w' =>
    rw [hr] at hbody hraised
    have hcontain : (contain name failure body w : Outcome H ε Answer) =
        (Entry.throwable e >>= fun o => do
          Action.update fun w => w.setPending o
          return failure) w' := by rw [contain, hr]
    rw [hcontain]
    rcases throwable_cases (hw.calm hbody.1) hbody.2 with ⟨v, hv⟩ | ⟨o, w'', ho, hcalm, hthrowable⟩
    · rw [Action.bind_halt hv]
      exact .stopped trivial
    · rw [Action.bind_ok ho]
      exact hraised trivial (hbody.1.trans hcalm) hthrowable
  | panic m w' =>
    rw [hr] at hbody hraised
    have hcontain : (contain name failure body w : Outcome H ε Answer) =
        (raise ⟨.internal, name ++ ": " ++ m.getD unknownPanic⟩ >>= fun _ => pure failure) w' := by
      rw [contain, hr]
    rw [hcontain]
    exact hraised trivial (hbody.trans (w'.sameSide_materialize _).calm) fun _ =>
      isThrowable_materialize (hw.calm hbody).throwables _
  | halt r w' =>
    rw [hr] at hbody
    have hcontain : (contain name failure body w : Outcome H ε Answer) = .halt r w' := by
      rw [contain, hr]
    rw [hcontain]
    exact .stopped hbody

end Guard

/-- Native code may pass no environment or that of another thread, but no environment of the running
thread apart from the one that it has. -/
def Admits (w : World H) (env : Option Env) : Prop :=
  ∀ e, env = some e → e.owner = w.thread.id → ownEnv w = some e

/-- An environment is that of an attached thread, or the run is over. -/
theorem checkEnv_cases {w : World H} {env : Option Env} (h : Admits w env) :
    (∃ v, (checkEnv env w : Outcome H ε Unit) = .halt (.violation v) w) ∨
      (w.attachment.isSome = true ∧ (checkEnv env w : Outcome H ε Unit) = .ok () w) := by
  cases env with
  | none => exact .inl ⟨_, rfl⟩
  | some e =>
    by_cases howner : e.owner = w.thread.id
    · have howned := h e rfl howner
      obtain ⟨a, ha, -⟩ := Option.map_eq_some_iff.1 howned
      have hattached : w.attachment.isSome = true := by rw [ha]; rfl
      exact .inr ⟨hattached, howned ▸ checkEnv_own hattached⟩
    · refine .inl ⟨.foreignEnvironment e.owner w.thread.id, ?_⟩
      show (if e.owner ≠ w.thread.id then _ else _ : Action H ε Unit) w = _
      rw [if_pos howner]
      rfl

section Calls

variable {strict : Bool} {n : Nat} {call : Invoker H} {w : World H} {env : Option Env}

theorem guarded_callFunction (hw : w.Prepared strict n) (henv : Admits w env)
    (hcall : Guest.CallsConduct strict strict n call) {f : Function} {args : List Argument}
    (hs : Shaped f args)
    (hvalue : ∀ value, storedArgument? f args = some value → value.IsValue) :
    Guarded strict (.plain f.failure) (f.Leaves w) (perform call f args w) w
      (callFunction call env f args w : Outcome H ε Answer) := by
  rcases checkEnv_cases (ε := ε) henv with ⟨v, hv⟩ | ⟨hattached, hchecked⟩
  · rw [callFunction, guarded, Action.bind_halt hv]
    exact .stopped trivial
  · rw [callFunction, guarded, Action.bind_ok hchecked]
    exact guarded_contain hw.toSound hattached
      (performed_perform hcall hw hattached hs hvalue) f.name

theorem guarded_callStub (hw : Sound strict w) (henv : Admits w env) (name : String) :
    Guarded strict (.plain (.primitive (.long 0))) (fun _ _ => False)
      (Entry.fault .unsupportedOperation ("native interface function " ++ name ++
        " is not implemented") w) w (callStub env name w : Outcome H ε Answer) := by
  rcases checkEnv_cases (ε := ε) henv with ⟨v, hv⟩ | ⟨hattached, hchecked⟩
  · rw [callStub, guarded, Action.bind_halt hv]
    exact .stopped trivial
  · rw [callStub, guarded, Action.bind_ok hchecked]
    have hfault : ∀ message, Performed strict (fun _ _ => False) w
        ((Entry.fault .unsupportedOperation message : Entry H Answer) w) := fun _ =>
      ⟨.refl w, fun _ _ ho => by cases ho⟩
    exact guarded_contain hw hattached (hfault _) name

end Calls

end Interface

end GuestBoundary
