import GuestBoundary.Guest.Bootstrap
import GuestBoundary.Proofs.Native.Frames

/-!
# Native calls and their frames

A native call opens a frame, puts its receiver and its arguments there, runs its function and closes
the innermost frame, whichever that is by then.  `callBound_course` lists the ways that this can go;
that whole runs do what their record says of references (`keeps_recorded_invoke`) follows by
induction on how deeply calls are nested.  If the function closes the frames that it opens, and no
other, the caller finds its frames and its references as they were.
-/

namespace GuestBoundary.Native

variable {H ε α : Type}

/-! ## Before the function -/

theorem neverPanics_onAttachment (f : Attachment → Except EntryError (α × Attachment)) :
    NeverPanics (Entry.onAttachment f : Entry H α) := by
  intro w m w' h
  unfold Entry.onAttachment at h
  split at h
  · cases h
  · split at h <;> cases h

theorem neverPanics_onBridge (f : Bridge → Except EntryError (α × Bridge)) :
    NeverPanics (Entry.onBridge f : Entry H α) := by
  intro w m w' h
  unfold Entry.onBridge at h
  split at h
  · cases h
  · split at h <;> cases h

/-- What the function of a binding is called with, in the innermost frame. -/
def marshal (env : Env) (binding : Binding) (receiver : ObjectRef) (args : List Value) :
    Entry H NativeCall := do
  let handle ← Entry.newLocal (some receiver)
  let slots ← arguments binding.signature.params args
  return ⟨binding.address, env, handle, slots⟩

/-- What comes before the function: a frame is opened, and the arguments are put there. -/
def prepare (env : Env) (binding : Binding) (receiver : ObjectRef) (args : List Value) :
    Entry H NativeCall := do
  Entry.pushFrame (frameCapacity args)
  marshal env binding receiver args

/-- The end of a call: its frame is closed, and a throwable that is pending is thrown. -/
def finish (result : Except EntryError Value) : Entry H Value := do
  discard (Entry.popFrame none)
  let v ← Action.ofExcept result
  let taken ← Entry.onAttachment fun a =>
    let (taken, pending) := a.pending.take
    .ok (taken, { a with pending })
  match taken with
  | some o => Action.fail (.thrown o)
  | none => return v

section Arguments

variable {G : ∀ {α : Type}, Guest H α → Prop}
  {P : ∀ {α : Type}, World H → Outcome H EntryError α → Prop} (k : EntryRules G P)
include k

theorem obeys_argument (kind : Kind) (v : Value) : Entry.Obeys P (argument kind v) := by
  refine k.after .bridge fun b => k.after (.ofConversion _) fun v => ?_
  split
  · exact k.map (k.newLocal _)
  · exact k.checks (.pure _)

theorem obeys_arguments (kinds : List Kind) (vs : List Value) :
    Entry.Obeys P (arguments kinds vs) := by
  induction kinds generalizing vs with
  | nil => exact k.checks (.pure [])
  | cons kind kinds ih =>
    cases vs with
    | nil => exact k.checks (.pure [])
    | cons v vs => exact k.andThen (obeys_argument k kind v) fun slot => k.map (ih vs)

theorem obeys_marshal (env : Env) (binding : Binding) (receiver : ObjectRef)
    (args : List Value) : Entry.Obeys P (marshal env binding receiver args) :=
  k.andThen (k.newLocal _) fun _ => k.map (obeys_arguments k _ _)

end Arguments

theorem neverPanics_argument (k : Kind) (v : Value) :
    NeverPanics (argument k v : Entry H Slot) := by
  refine (neverPanics_onBridge _).bind fun b => (NeverPanics.ofExcept _).bind fun v => ?_
  split
  · exact (neverPanics_onAttachment _).bind fun h => .pure _
  · exact .pure _

theorem neverPanics_arguments (ks : List Kind) (vs : List Value) :
    NeverPanics (arguments ks vs : Entry H (List Slot)) := by
  induction ks generalizing vs with
  | nil => exact .pure []
  | cons k ks ih =>
    cases vs with
    | nil => exact .pure []
    | cons v vs => exact (neverPanics_argument k v).bind fun slot => (ih vs).bind fun _ => .pure _

theorem neverPanics_marshal (env : Env) (binding : Binding) (receiver : ObjectRef)
    (args : List Value) : NeverPanics (marshal env binding receiver args : Entry H NativeCall) :=
  (neverPanics_onAttachment _).bind fun _ => (neverPanics_arguments _ _).bind fun _ => .pure _

/-! ## How a call goes -/

theorem callBound_eq (native : NativeCode H) (call : Invoker H) (env : Env) (binding : Binding)
    (receiver : ObjectRef) (args : List Value) :
    callBound native call env binding receiver args = (do
      Entry.pushFrame (frameCapacity args)
      let result ← (callInFrame native call env binding receiver args).result
      finish result) := rfl

section InFrame

variable {native : NativeCode H} {call : Invoker H} {env : Env} {binding : Binding}
  {receiver : ObjectRef} {args : List Value} {w w₁ w₂ : World H} {c : NativeCall}

theorem callInFrame_eq : callInFrame native call env binding receiver args = (do
    let c ← marshal env binding receiver args
    let word ← (native call c).noError
    Action.read fun w => Slot.read w.resolve binding.signature.result word) := by
  simp only [marshal, Action.bind_assoc]
  rfl

theorem callInFrame_error {e : EntryError}
    (hm : marshal env binding receiver args w = .error e w₁) :
    callInFrame native call env binding receiver args w = .error e w₁ := by
  rw [callInFrame_eq]
  exact Action.bind_error hm

theorem callInFrame_halt {r : Halt} (hm : marshal env binding receiver args w = .halt r w₁) :
    callInFrame native call env binding receiver args w = .halt r w₁ := by
  rw [callInFrame_eq]
  exact Action.bind_halt hm

theorem callInFrame_ok (hm : marshal env binding receiver args w = .ok c w₁) {word : Slot}
    (hn : native call c w₁ = .ok word w₂) :
    callInFrame native call env binding receiver args w =
      .ok (Slot.read w₂.resolve binding.signature.result word) w₂ := by
  have hword : ((native call c).noError : Entry H Slot) w₁ = .ok word w₂ := by
    rw [Action.noError, Action.mapError, hn]
  rw [callInFrame_eq, Action.bind_ok hm, Action.bind_ok hword]
  rfl

theorem callInFrame_native_halt (hm : marshal env binding receiver args w = .ok c w₁) {r : Halt}
    (hn : native call c w₁ = .halt r w₂) :
    callInFrame native call env binding receiver args w = .halt r w₂ := by
  have hword : ((native call c).noError : Entry H Slot) w₁ = .halt r w₂ := by
    rw [Action.noError, Action.mapError, hn]
  rw [callInFrame_eq, Action.bind_ok hm, Action.bind_halt hword]

end InFrame

/-- The end of a call, once its frame is closed. -/
def settle (result : Except EntryError Value) (a : Attachment) (w : World H) :
    Outcome H EntryError Value :=
  match result with
  | .error e => .error e (w.setAttachment (some a))
  | .ok v =>
    let w := w.setAttachment (some { a with pending := .empty })
    match a.pending.slot with
    | some o => .error (.thrown o) w
    | none => .ok v w

theorem finish_eq {w : World H} {a : Attachment} (ha : w.attachment = some a)
    (result : Except EntryError Value) :
    finish result w =
      match a.locals.pop? none with
      | none => .error (.contract .unbalancedFrame) w
      | some (_, locals) => settle result { a with locals } w := by
  have hpop := popFrame_eq ha none
  cases hp : a.locals.pop? none with
  | none =>
    rw [hp] at hpop
    exact Action.bind_error (Action.bind_error hpop)
  | some p =>
    obtain ⟨r, locals⟩ := p
    obtain rfl : r = .ok .null := by
      rw [Locals.pop?] at hp
      obtain ⟨t, -, ht⟩ := Option.map_eq_some_iff.1 hp
      cases ht
      rfl
    rw [hp] at hpop
    have hclose : (discard (Entry.popFrame none) : Entry H Unit) w =
        .ok () (w.setAttachment (some { a with locals })) := Action.bind_ok hpop
    rw [finish, Action.bind_ok hclose]
    cases result with
    | error e => rfl
    | ok v =>
      obtain ⟨serial, before, ⟨slot⟩⟩ := a
      cases slot <;> rfl

theorem finish_of_none {w : World H} (ha : w.attachment = none) (result : Except EntryError Value) :
    finish result w = .halt .misuse w :=
  Action.bind_halt (Action.bind_halt (Action.bind_halt (onAttachment_of_none ha _)))

/-- The state once the frame of a call is open. -/
def opened (w : World H) (a : Attachment) (args : List Value) : World H :=
  w.setAttachment (some { a with locals := a.locals.opened (frameCapacity args) })

/-- A function that is reached has a frame, for which there was room, and its arguments in it. -/
theorem of_prepare_ok {env : Env} {binding : Binding} {receiver : ObjectRef} {args : List Value}
    {w w' : World H} {c : NativeCall} (h : prepare env binding receiver args w = .ok c w') :
    ∃ a, w.attachment = some a ∧ a.locals.hasRoom (frameCapacity args) = true ∧
      marshal env binding receiver args (opened w a args) = .ok c w' := by
  obtain ⟨_, w₁, hpush, hmarshal⟩ := Action.of_bind_ok h
  cases ha : w.attachment with
  | none => cases (onAttachment_of_none ha _).symm.trans hpush
  | some a =>
    rw [pushFrame_eq ha] at hpush
    by_cases hroom : a.locals.hasRoom (frameCapacity args) = true
    · rw [if_pos hroom] at hpush
      cases hpush
      exact ⟨a, rfl, hroom, hmarshal⟩
    · rw [if_neg hroom] at hpush
      cases hpush

theorem Did.inside {es : List Event} {w w₂ : World H} {a : Attachment} {args : List Value}
    (h : Did es (opened w a args) w₂) :
    ∃ a₂ ops, w₂.attachment = some a₂ ∧
      a₂.locals = (a.locals.opened (frameCapacity args)).after ops ∧
      Profile (a.locals.opened (frameCapacity args)) ops es := h _ rfl

section Course

variable (natives : NativeCall → Program H) (call : Invoker (Recorded H)) (env : Env)
  (binding : Binding) (receiver : ObjectRef) (args : List Value) (w : World (Recorded H))
  (a : Attachment)

/-- The ways that a call can go. -/
inductive Course : Outcome (Recorded H) EntryError Value → Prop where
  | halted (r : Halt) (w' : World (Recorded H)) : Course (.halt r w')
  /-- There is no room for a frame. -/
  | refused {e : EntryError} (hprepare : prepare env binding receiver args w = .error e w) :
    Course (.error e w)
  /-- An argument is refused. -/
  | unprepared {e : EntryError} {w₁ : World (Recorded H)}
    (hroom : a.locals.hasRoom (frameCapacity args) = true)
    (hprepare : prepare env binding receiver args w = .error e w₁)
    (hhost : w₁.host = w.host) (hdid : Did [] (opened w a args) w₁) :
    Course (finish (.error e) w₁)
  /-- The function runs and returns. -/
  | ran {c : NativeCall} {w₁ : World (Recorded H)} {word : Slot} {w₂ : World (Recorded H)}
    {es : List Event} (hroom : a.locals.hasRoom (frameCapacity args) = true)
    (hprepare : prepare env binding receiver args w = .ok c w₁)
    (hcode : Program.code natives call c w₁ = .ok word w₂)
    (htrace : w₂.host.trace = w.host.trace ++ .entered :: es ++ [.left])
    (hdid : Did es (opened w a args) w₂) :
    Course (finish (.ok (Slot.read w₂.resolve binding.signature.result word)) w₂)

variable {call w a}

theorem callBound_course (hcall : CallsKeep Followed call) (ha : w.attachment = some a) :
    Course natives call env binding receiver args w a
      (callBound (Program.code natives) call env binding receiver args w) := by
  rw [callBound_eq]
  have hpush : Entry.pushFrame (frameCapacity args) w =
      if a.locals.hasRoom (frameCapacity args) then .ok () (opened w a args)
      else .error (.alloc (.localLimit a.locals.limit)) w := pushFrame_eq ha _
  by_cases hroom : a.locals.hasRoom (frameCapacity args) = true
  · rw [if_pos hroom] at hpush
    have hmarshal : (marshal env binding receiver args (opened w a args)).Leaves
        (Quiet (opened w a args)) := obeys_marshal quiet_neutral.rules env binding receiver args _
    rw [Action.bind_ok hpush]
    cases hm : marshal env binding receiver args (opened w a args) with
    | ok c w₁ =>
      rw [hm] at hmarshal
      have hran := returns_code hcall natives c w₁
      cases hcode : Program.code natives call c w₁ with
      | ok word w₂ =>
        rw [hcode] at hran
        obtain ⟨es, htrace, hdid⟩ := hran
        rw [hmarshal.host] at htrace
        rw [Action.bind_ok (Action.result_ok (callInFrame_ok hm hcode))]
        exact .ran hroom ((Action.bind_ok hpush).trans hm) hcode htrace (hmarshal.did.append hdid)
      | error e w₂ => exact e.elim
      | panic m w₂ =>
        rw [hcode] at hran
        exact hran.elim
      | halt r w₂ =>
        rw [Action.bind_halt (Action.result_halt (callInFrame_native_halt hm hcode))]
        exact .halted r w₂
    | error e w₁ =>
      rw [hm] at hmarshal
      rw [Action.bind_ok (Action.result_error (callInFrame_error hm))]
      exact .unprepared hroom ((Action.bind_ok hpush).trans hm) hmarshal.host hmarshal.did
    | panic m w₁ => exact absurd hm (neverPanics_marshal _ _ _ _ _ _ _)
    | halt r w₁ =>
      rw [Action.bind_halt (Action.result_halt (callInFrame_halt hm))]
      exact .halted r w₁
  · rw [if_neg hroom] at hpush
    rw [Action.bind_error hpush]
    exact .refused (Action.bind_error hpush)

end Course

/-! ## What a call does -/

/-- Operations in a frame of their own. -/
theorem Profile.bracket {t t' : Locals α} {n : Nat} (hroom : t.hasRoom n = true)
    {ops : List (Locals.Op α)} {es : List Event} (p : Profile (t.opened n) ops es)
    {r : Except AllocError Handle} (hp : ((t.opened n).after ops).pop? none = some (r, t')) :
    t' = t.after (.push n :: ops ++ [.pop none]) ∧
      Profile t (.push n :: ops ++ [.pop none]) (.entered :: es ++ [.left]) := by
  have hopened : t.after [.push n] = t.opened n := Locals.perform_push hroom
  have hin : t.after (.push n :: ops) = (t.opened n).after ops := by
    rw [← hopened]
    rfl
  have pin : Profile t (.push n :: ops) (.entered :: es) :=
    (Profile.push hroom rfl).append (hopened ▸ p)
  refine ⟨?_, pin.append (.pop (hin ▸ hp) rfl)⟩
  rw [Locals.after_append, hin, Locals.after_cons, Locals.perform_pop hp, Locals.after_nil]

/-- The action keeps `R` unless it fails because native code broke a rule. -/
def Abides (R : World H → World H → Prop) (a : Entry H α) : Prop :=
  ∀ w, (∃ v w', a w = .error (.contract v) w') ∨ (a w).Leaves (R w)

theorem Abides.bind {β : Type} {R : World H → World H → Prop} (p : Composable R)
    {a : Entry H α} {f : α → Entry H β} (ha : Keeps R a) (hf : ∀ x, Abides R (f x)) :
    Abides R (a >>= f) := by
  intro w
  have h := ha w
  cases hr : a w with
  | ok x w' =>
    rw [hr] at h
    rw [Action.bind_ok hr]
    exact (hf x w').imp id fun h' => h'.mono fun _ => p.trans h
  | error e w' =>
    rw [hr] at h
    exact .inr (by rwa [Action.bind_error hr])
  | panic m w' =>
    rw [hr] at h
    exact .inr (by rwa [Action.bind_panic hr])
  | halt r w' =>
    rw [Action.bind_halt hr]
    exact .inr trivial

theorem leaves_finish {w : World H} {a : Attachment} (ha : w.attachment = some a)
    (result : Except EntryError Value) :
    (finish result w).Leaves fun w' => w'.host = w.host := by
  rw [finish_eq ha]
  cases a.locals.pop? none with
  | none => exact rfl
  | some closed =>
    dsimp only [settle]
    cases result with
    | error e => exact rfl
    | ok v => cases a.pending.slot <;> exact rfl

/-- The embedding program has no part in the end of a call. -/
theorem host_of_finish {w w' : World H} {a : Attachment} (ha : w.attachment = some a)
    {r result : Except EntryError Value} (h : .returned r w' = finish result w) :
    w'.host = w.host := by
  have := leaves_finish ha result
  rw [← h] at this
  cases r <;> exact this

theorem of_settle_ok {r : Except EntryError Value} {v : Value} {w w' : World H} {a : Attachment}
    (h : .returned r w' = settle (.ok v) a w) :
    w' = w.setAttachment (some { a with pending := .empty }) ∧
      (∀ o, r = .error (.thrown o) ↔ a.pending.slot = some o) ∧
      (a.pending.slot = none → r = .ok v) := by
  dsimp only [settle] at h
  cases hs : a.pending.slot with
  | none =>
    rw [hs] at h
    cases r <;> cases h
    exact ⟨rfl, fun o => by simp, fun _ => rfl⟩
  | some o =>
    rw [hs] at h
    cases r <;> cases h
    exact ⟨rfl, fun o' => by simp, nofun⟩

section Recorded

variable {natives : NativeCall → Program H} {call : Invoker (Recorded H)}

/-- The end of a call whose frame is still open, or was closed with others before. -/
theorem finish_followed {w w₂ : World (Recorded H)} {a : Attachment}
    (ha : w.attachment = some a) {args : List Value}
    (hroom : a.locals.hasRoom (frameCapacity args) = true) {es es' : List Event}
    (hdid : Did es (opened w a args) w₂) (htrace : w₂.host.trace = w.host.trace ++ es')
    (hes : ∀ ops, Profile a.locals ops (.entered :: es ++ [.left]) → Profile a.locals ops es')
    (result : Except EntryError Value) :
    (∃ v w', finish result w₂ = .error (.contract v) w') ∨
      (finish result w₂).Leaves (Followed w) := by
  obtain ⟨a₂, ops, ha₂, hlocals, p⟩ := hdid.inside
  rw [finish_eq ha₂, hlocals]
  cases hp : ((a.locals.opened (frameCapacity args)).after ops).pop? none with
  | none => exact .inl ⟨_, _, rfl⟩
  | some closed =>
    obtain ⟨r, t⟩ := closed
    obtain ⟨ht, p'⟩ := p.bracket hroom hp
    have hfollowed : ∀ pending, Followed w
        (w₂.setAttachment (some { a₂ with locals := t, pending := pending })) := by
      intro pending
      refine ⟨es', htrace, fun a' ha' => ?_⟩
      rw [ha] at ha'
      cases ha'
      exact ⟨_, _, rfl, ht, hes _ p'⟩
    right
    dsimp only [settle]
    cases result with
    | error e => exact hfollowed _
    | ok v =>
      cases a₂.pending.slot with
      | none => exact hfollowed _
      | some o => exact hfollowed _

theorem abides_callBound (hcall : CallsKeep Followed call) (env : Env) (binding : Binding)
    (receiver : ObjectRef) (args : List Value) :
    Abides Followed (callBound (Program.code natives) call env binding receiver args) := by
  intro w
  cases ha : w.attachment with
  | none =>
    have hpush : Entry.pushFrame (frameCapacity args) w = .halt .misuse w :=
      onAttachment_of_none ha _
    rw [callBound_eq, Action.bind_halt hpush]
    exact .inr trivial
  | some a =>
    have hcourse := callBound_course natives env binding receiver args hcall ha
    generalize callBound (Program.code natives) call env binding receiver args w = o at hcourse ⊢
    cases hcourse with
    | halted r w' => exact .inr trivial
    | refused hprepare => exact .inr (followed_neutral.refl w)
    | @unprepared e w₁ hroom hprepare hhost hdid =>
      have htrace : w₁.host.trace = w.host.trace ++ [] := by rw [hhost, List.append_nil]
      refine finish_followed ha hroom hdid htrace (fun ops p => ?_) _
      · -- The frame was opened and closed again, which leaves no record.
        exact ⟨p.depth, p.lowest, fun h => (p.deletes h).trans (by simp), p.noReset⟩
    | ran hroom hprepare hcode htrace hdid =>
      exact finish_followed ha hroom hdid (by rw [htrace, List.append_assoc]) (fun _ p => p) _

theorem abides_runMethod (hcall : CallsKeep Followed call) (env : Env) (m : MethodRef)
    (receiver : Option ObjectRef) (args : List Value) :
    Abides Followed (runMethod (Program.code natives) call env m receiver args) := by
  have n := followed_neutral (H := H)
  have p := n.toComposable
  refine .bind p (.read p _) fun r => .bind p (n.rules.resolve r m) fun binding => ?_
  refine .bind p (n.rules.checks .bridge) fun b => ?_
  have hbound : ∀ o, Abides Followed (callBound (Program.code natives) call env binding o args) :=
    fun o => abides_callBound hcall env binding o args
  dsimp only
  split
  · refine .bind p (.ofExcept p _) fun _ => ?_
    cases receiver with
    | none => exact .bind p (n.rules.mirror _) hbound
    | some o => exact hbound o
  · cases receiver with
    | none => exact .bind p (n.rules.mirror _) hbound
    | some o => exact hbound o

theorem followed_attach (w : World (Recorded H)) (b : Bridge) : Followed w (w.attach b).2 := by
  rw [World.attach]
  cases ha : w.attachment with
  | some a => exact followed_neutral.refl w
  | none => exact ⟨[], (List.append_nil _).symm, .of_none ha⟩

/-- A native method does what the record says; one that breaks a rule ends the run. -/
theorem keeps_nativeInvoke (hcall : CallsKeep Followed call) :
    CallsKeep Followed (Native.invoke (Program.code natives) call) := by
  intro m receiver args
  have n := followed_neutral (H := H)
  have p := n.toComposable
  refine (Keeps.world p).bind p fun w => ?_
  dsimp only
  split
  · exact n.throwFault _
  · refine Keeps.bind p (.step fun w => followed_attach w _) fun env => ?_
    intro w
    have hrun : Abides Followed (runMethod (Program.code natives) call env m receiver args) :=
      abides_runMethod hcall env m receiver args
    rcases hrun w with ⟨v, w', h⟩ | h
    · rw [Action.bind_ok (Action.result_error h)]
      trivial
    · refine Keeps.bind_at p (Keeps.result_at h) fun r w' _ => ?_
      cases r with
      | ok v => exact p.refl w'
      | error e =>
        have hthrowable : Keeps Followed (Entry.throwable e : Guest (Recorded H) ObjectRef) :=
          finishes_true_iff.1 (n.finishNeutral.throwable e)
        exact hthrowable.bind p (fun o => .fail p o) w'

/-- Everything that runs does to the references of its thread what the record says. -/
theorem keeps_recorded_invoke (natives : NativeCall → Program H) (fuel : Nat) :
    CallsKeep Followed (Guest.invoke (Program.code natives) fuel) := by
  induction fuel with
  | zero => exact fun _ _ _ => .halt _
  | succ fuel ih =>
    intro m receiver args
    exact followed_sideNeutral.callNeutral.invokeWith receiver args ih (keeps_nativeInvoke ih) m

end Recorded

/-! ## What the caller finds -/

/-- As many frames are open as before, and the references are the ones that were there, apart from
those that were deleted. -/
structure Intact (es : List Event) (t t' : Locals α) : Prop where
  depth : t'.depth = t.depth
  resolve : ∀ h o, t'.resolve h = some o ↔ t.resolve h = some o ∧ .deleted h ∉ es

theorem Profile.intact_of_balanced {t : Locals α} (wf : t.WellFormed) {n : Nat}
    {ops : List (Locals.Op α)} {es : List Event} (p : Profile (t.opened n) ops es)
    (hbalanced : Event.Balanced es) :
    ∃ t', ((t.opened n).after ops).pop? none = some (.ok .null, t') ∧ Intact es t t' := by
  obtain ⟨hlow, hnet⟩ := hbalanced
  have hopened : (t.opened n).depth = t.depth + 1 := rfl
  have hlowest := p.lowest
  have hdepth := p.depth
  have hle := Event.low_le_zero es
  have hstays : t.depth < (t.opened n).lowest ops := by omega
  have hends : ((t.opened n).after ops).depth = t.depth + 1 := by omega
  obtain ⟨t', hp, hframes, hresolve⟩ := wf.resolve_after hstays hends
  refine ⟨t', hp, ?_, fun h o => ?_⟩
  · rw [Locals.depth_eq, Locals.depth_eq, hframes]
  · rw [hresolve, p.deletes]

/-- The end of a call that was balanced. -/
theorem finish_of_balanced {w w₂ : World H} {a : Attachment} (wf : a.locals.WellFormed)
    {args : List Value} {es : List Event} (hdid : Did es (opened w a args) w₂)
    (hbalanced : Event.Balanced es) :
    ∃ a₂ t, w₂.attachment = some a₂ ∧ Intact es a.locals t ∧
      ∀ result, finish result w₂ = settle result { a₂ with locals := t } w₂ := by
  obtain ⟨a₂, ops, ha₂, hlocals, p⟩ := hdid.inside
  obtain ⟨t, hp, hintact⟩ := p.intact_of_balanced wf hbalanced
  exact ⟨a₂, t, ha₂, hintact, fun result => by rw [finish_eq ha₂, hlocals, hp]⟩

theorem Intact.congr {es es' : List Event} {t t' : Locals α} (h : Intact es t t')
    (hes : ∀ h, .deleted h ∈ es' ↔ .deleted h ∈ es) : Intact es' t t' where
  depth := h.depth
  resolve := fun h' o => by rw [h.resolve, hes]

/-- A call whose function closes the frames that it opens, and no other, leaves its caller the
frames and the references that it had, however it ends; if the function ran, no throwable is left
pending: the one that it left is thrown, or else its word is answered as it stood at its return. -/
theorem balanced_call_leaves_caller_intact (natives : NativeCall → Program H) (fuel : Nat)
    (env : Env) (binding : Binding) (receiver : ObjectRef) (args : List Value)
    {w w' : World (Recorded H)} {a : Attachment} {r : Except EntryError Value}
    (ha : w.attachment = some a) (hlocals : a.locals.Reachable)
    (hcall : ((callBound (Program.code natives) (Guest.invoke (Program.code natives) fuel)
      env binding receiver args).result w : Outcome _ Empty _) = .ok r w')
    (hbalanced : ∀ es, w'.host.trace = w.host.trace ++ .entered :: es ++ [.left] →
      Event.Balanced es) :
    (∃ a' es, w'.attachment = some a' ∧ w'.host.trace = w.host.trace ++ es ∧
      Intact es a.locals a'.locals) ∧
    ((∃ e w₁, prepare env binding receiver args w = .error e w₁ ∧ r = .error e) ∨
      ∃ c w₁ word w₂, prepare env binding receiver args w = .ok c w₁ ∧
        Program.code natives (Guest.invoke (Program.code natives) fuel) c w₁ = .ok word w₂ ∧
        w'.pending = none ∧ (∀ o, r = .error (.thrown o) ↔ w₂.pending = some o) ∧
        (w₂.pending = none →
          r = .ok (Slot.read w₂.resolve binding.signature.result word))) := by
  have hcourse := callBound_course natives env binding receiver args
    (keeps_recorded_invoke natives fuel) ha
  have wf := hlocals.wellFormed
  rw [Action.returned_of_result hcall] at hcourse
  generalize ho : Outcome.returned r w' = o at hcourse
  cases hcourse with
  | halted r' w₁ => cases r <;> cases ho
  | refused hprepare =>
    cases r <;> cases ho
    exact ⟨⟨a, [], ha, (List.append_nil _).symm, rfl, by simp⟩, .inl ⟨_, _, hprepare, rfl⟩⟩
  | @unprepared e w₁ hroom hprepare hhost hdid =>
    obtain ⟨a₁, t, ha₁, hintact, hfinish⟩ := finish_of_balanced wf hdid .nil
    rw [hfinish] at ho
    cases r <;> cases ho
    refine ⟨⟨_, [], rfl, ?_, hintact⟩, .inl ⟨_, _, hprepare, rfl⟩⟩
    rw [List.append_nil]
    exact congrArg Recorded.trace hhost
  | @ran c w₁ word w₂ es hroom hprepare hcode htrace hdid =>
    have hhost : w'.host = w₂.host := by
      obtain ⟨a₂, -, ha₂, -⟩ := hdid.inside
      exact host_of_finish ha₂ ho
    rw [← hhost] at htrace
    obtain ⟨a₂, t, ha₂, hintact, hfinish⟩ := finish_of_balanced wf hdid (hbalanced es htrace)
    have hpending : w₂.pending = a₂.pending.slot := by
      rw [World.pending, ha₂]
      rfl
    rw [hfinish] at ho
    obtain ⟨rfl, hthrown, hvalue⟩ := of_settle_ok ho
    refine ⟨⟨_, .entered :: es ++ [.left], rfl, ?_, hintact.congr (by simp)⟩, .inr ?_⟩
    · rw [htrace, List.append_assoc]
    · refine ⟨c, w₁, word, w₂, hprepare, hcode, rfl, fun o => ?_, fun hnone => ?_⟩
      · rw [hpending]
        exact hthrown o
      · exact hvalue (hpending.symm.trans hnone)

/-- A table with a second frame, which owns a reference. -/
def callerLocals : Locals ObjectRef := (Locals.empty 4096).after [.push 16, .create (some ⟨0⟩)]

/-- A thread with that table. -/
def callerThread : World (Recorded Unit) :=
  (((World.bare World.defaultCallDepth .growing ⟨(), []⟩).install .default).setAttachment
    (some ⟨0, callerLocals, .empty⟩))

/-- A function without arguments that answers nothing. -/
def plainBinding : Binding := ⟨⟨⟨0⟩, 0⟩, ⟨1⟩, ⟨"()V", [], .void⟩⟩

/-- Calls that function for the thread. -/
def callPlain (natives : NativeCall → Program Unit) : Entry (Recorded Unit) Value :=
  callBound (Program.code natives) (Guest.invoke (Program.code natives) 0) ⟨⟨0⟩, 0⟩ plainBinding
    ⟨0⟩ []

/-- Makes a reference in a frame that it opens and closes again, and deletes its argument. -/
def tidy (c : NativeCall) : Program Unit :=
  .call (some c.env) .pushLocalFrame [.primitive (.int 4)] (.pushLocalFrame 4) fun _ =>
  .call (some c.env) .newLocalRef [.handle c.receiver] (.newLocalRef c.receiver) fun _ =>
  .call (some c.env) .popLocalFrame [.handle .null] (.popLocalFrame .null) fun _ =>
  .call (some c.env) .deleteLocalRef [.handle c.receiver] (.deleteLocalRef c.receiver) fun _ =>
  .done 0

theorem callPlain_tidy : ∃ w', ((callPlain tidy).result callerThread : Outcome _ Empty _) =
      .ok (.ok .void) w' ∧
    w'.host.trace = [.entered, .pushed, .popped, .deleted (callerLocals.handleAt 1), .left] :=
  ⟨_, rfl, rfl⟩

theorem tidy_leaves_caller_intact :
    ∃ w' a', ((callPlain tidy).result callerThread : Outcome _ Empty _) = .ok (.ok .void) w' ∧
      w'.attachment = some a' ∧ a'.locals.depth = 2 ∧
      a'.locals.resolve (callerLocals.handleAt 0) = some ⟨0⟩ := by
  obtain ⟨w', hcall, htrace⟩ := callPlain_tidy
  have hreachable : callerLocals.Reachable := (Locals.Reachable.empty 4096).after _
  obtain ⟨⟨a', es, ha', hes, hintact⟩, -⟩ := balanced_call_leaves_caller_intact tidy 0 _
    plainBinding ⟨0⟩ [] (a := ⟨0, callerLocals, .empty⟩) rfl hreachable hcall fun es hes => by
      rw [htrace] at hes
      obtain rfl : es = [.pushed, .popped, .deleted (callerLocals.handleAt 1)] :=
        (List.append_cancel_right (List.cons.inj hes).2).symm
      decide
  rw [htrace] at hes
  obtain rfl := hes.symm
  exact ⟨w', a', hcall, ha', hintact.depth, (hintact.resolve _ _).2 ⟨rfl, by decide⟩⟩

end GuestBoundary.Native
