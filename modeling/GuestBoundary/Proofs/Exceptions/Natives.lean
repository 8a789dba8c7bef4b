import GuestBoundary.Proofs.Exceptions.Calls
import GuestBoundary.Proofs.Native.Calls

/-!
# What is pending after a native call

A native function may call functions of the interface and do other things (`Program.Proper`); what
it leaves pending is thrown when it returns.  So native methods are conducted as guest code is, and
calls are, however deeply they are nested.
-/

namespace GuestBoundary.Native

open World Interface

variable {H ε α β : Type}

/-! ## Programs -/

/-- Native code that was called in an environment passes that one, none or another thread's, and
values where values are asked for; what else it does is done calmly. -/
def Program.Proper (own : Env) : Program H → Prop
  | .done _ => True
  | .call env f args _ next => (∀ e, env = some e → e.owner = own.owner → e = own) ∧
      (∀ value, storedArgument? f args = some value → value.IsValue) ∧
      ∀ answer, (next answer).Proper own
  | .stub env _ next => (∀ e, env = some e → e.owner = own.owner → e = own) ∧
      ∀ answer, (next answer).Proper own
  | .aside a next => (∀ w : World (Recorded H), w.Calm (a.act w)) ∧ ∀ w, (next w).Proper own

section Served

variable {strict : Bool} {n : Nat} {own : Env}

/-- The thread went on, or the run is over for a reason. -/
def Served (strict : Bool) (w : World H) : Outcome H Empty α → Prop
  | .ok _ w' => w.Continues w' ∧ Sound strict w'
  | .halt r w' => r.Excused strict w'
  | .error _ _ | .panic _ _ => False

theorem Served.bind {a : Action H Empty α} {f : α → Action H Empty β} {w : World H}
    (ha : Served strict w (a w))
    (hf : ∀ x w', w.Continues w' → Sound strict w' → Served strict w' (f x w')) :
    Served strict w ((a >>= f) w) := by
  cases hr : a w with
  | ok x w' =>
    rw [hr] at ha
    have h := hf x w' ha.1 ha.2
    rw [Action.bind_ok hr]
    cases hr' : f x w' with
    | ok y w'' =>
      rw [hr'] at h
      exact ⟨ha.1.trans h.1, h.2⟩
    | error e w'' => exact e.elim
    | panic m w'' =>
      rw [hr'] at h
      exact h
    | halt r w'' =>
      rw [hr'] at h
      exact h
  | error e w' => exact e.elim
  | panic m w' =>
    rw [hr] at ha
    exact ha.elim
  | halt r w' =>
    rw [hr] at ha
    rwa [Action.bind_halt hr]

theorem served_of_guarded {failure : Answer} {leaves : Answer → World H → Prop}
    {body : Outcome H EntryError Answer} {w : World H} {o : Outcome H Empty Answer}
    (h : Guarded strict failure leaves body w o) : Served strict w o := by
  cases h with
  | stopped h => exact h
  | raised _ continues sound _ => exact ⟨continues, sound⟩
  | completed _ continues sound _ => exact ⟨continues, sound⟩

theorem served_update {f : World H → World H} {w : World H} (hw : Sound strict w)
    (h : w.Calm (f w)) : Served strict w (Action.update f w : Outcome H Empty Unit) :=
  ⟨h.toContinues, hw.calm h⟩

theorem calm_record (es : List Event) (w : World (Recorded H)) :
    w.Calm { w with host := { w.host with trace := w.host.trace ++ es } } :=
  .of_thread rfl rfl rfl id (.refl _) (.refl _)

/-- A thread keeps its environment. -/
theorem ownEnv_of_continues {w w' : World H} (h : w.Continues w') (ho : ownEnv w = some own) :
    ownEnv w' = some own := by
  obtain ⟨a, ha, rfl⟩ := Option.map_eq_some_iff.1 ho
  obtain ⟨a', ha', hserial⟩ := h.attached a ha
  rw [ownEnv, ha', Option.map_some, h.id, hserial]

theorem admits_of_own {w : World H} (ho : ownEnv w = some own) {env : Option Env}
    (h : ∀ e, env = some e → e.owner = own.owner → e = own) : Admits w env := by
  intro e he howner
  obtain ⟨a, ha, rfl⟩ := Option.map_eq_some_iff.1 ho
  rw [h e he howner, ho]

/-- Proper native code is served, however long it runs. -/
theorem served_run {call : Invoker (Recorded H)} (hcall : Guest.CallsConduct strict strict n call)
    {p : Program H} (hp : p.Proper own) {w : World (Recorded H)} (hw : w.Prepared strict n)
    (ho : ownEnv w = some own) : Served strict w (p.run call w) := by
  have hnext : ∀ {w w' : World (Recorded H)}, w.Prepared strict n → ownEnv w = some own →
      w.Continues w' → Sound strict w' → w'.Prepared strict n ∧ ownEnv w' = some own :=
    fun hw ho h hs => ⟨hw.continues h hs, ownEnv_of_continues h ho⟩
  induction p generalizing w with
  | done word => exact ⟨(Calm.refl w).toContinues, hw.toSound⟩
  | call env f args hs next ih =>
    obtain ⟨henv, hvalue, hp⟩ := hp
    refine .bind (served_of_guarded
      (guarded_callFunction hw (admits_of_own ho henv) hcall hs hvalue)) fun answer w₁ h₁ hs₁ => ?_
    obtain ⟨hw₁, ho₁⟩ := hnext hw ho h₁ hs₁
    refine .bind (served_update hs₁ (calm_record _ w₁)) fun _ w₂ h₂ hs₂ => ?_
    obtain ⟨hw₂, ho₂⟩ := hnext hw₁ ho₁ h₂ hs₂
    exact ih answer (hp answer) hw₂ ho₂
  | stub env name next ih =>
    obtain ⟨henv, hp⟩ := hp
    refine .bind (served_of_guarded (guarded_callStub hw.toSound (admits_of_own ho henv) name))
      fun answer w₁ h₁ hs₁ => ?_
    obtain ⟨hw₁, ho₁⟩ := hnext hw ho h₁ hs₁
    exact ih answer (hp answer) hw₁ ho₁
  | aside a next ih =>
    obtain ⟨htame, hp⟩ := hp
    refine .bind (served_update hw.toSound (htame w)) fun _ w₁ h₁ hs₁ => ?_
    obtain ⟨hw₁, ho₁⟩ := hnext hw ho h₁ hs₁
    exact ih w₁ (hp w₁) hw₁ ho₁

theorem served_code {call : Invoker (Recorded H)} (hcall : Guest.CallsConduct strict strict n call)
    {natives : NativeCall → Program H} {c : NativeCall} (hp : (natives c).Proper c.env)
    {w : World (Recorded H)} (hw : w.Prepared strict n) (ho : ownEnv w = some c.env) :
    Served strict w (Program.code natives call c w) := by
  refine .bind (served_update hw.toSound (calm_record _ w)) fun _ w₁ h₁ hs₁ => ?_
  refine .bind (served_run hcall hp (hw.continues h₁ hs₁) (ownEnv_of_continues h₁ ho))
    fun word w₂ _ hs₂ => ?_
  exact .bind (served_update hs₂ (calm_record _ w₂)) fun _ w₃ _ hs₃ =>
    ⟨(Calm.refl w₃).toContinues, hs₃⟩

end Served

/-! ## Native calls -/

section Calls

variable {strict : Bool} {n : Nat} {own : Env}

/-- Native code broke a rule, or the outcome is conducted. -/
def Upheld (strict : Bool) (w : World H) (o : Outcome H EntryError α) : Prop :=
  (∃ v w', o = .error (.contract v) w') ∨ o.Conducted strict (Entry.MayFail strict) w

/-- So is the action in the environment of the thread. -/
def Upholds (strict : Bool) (n : Nat) (own : Env) (a : Entry H α) : Prop :=
  ∀ w : World H, w.Prepared strict n → ownEnv w = some own → Upheld strict w (a w)

theorem isSome_of_ownEnv {w : World H} (ho : ownEnv w = some own) :
    w.attachment.isSome = true := by
  obtain ⟨a, ha, -⟩ := Option.map_eq_some_iff.1 ho
  rw [ha]
  rfl

/-- What came before was calm, too. -/
theorem Upheld.after {w w' : World H} {o : Outcome H EntryError α} (hw : w.Calm w')
    (h : Upheld strict w' o) : Upheld strict w o := h.imp_right fun h => h.after hw

theorem Upholds.bind {a : Entry H α} {f : α → Entry H β}
    (ha : Entry.Obeys (Entry.Conducted strict n) a) (hf : ∀ x, Upholds strict n own (f x)) :
    Upholds strict n own (a >>= f) := by
  intro w hw ho
  have h := ha w hw (isSome_of_ownEnv ho)
  cases hr : a w with
  | ok x w' =>
    rw [hr] at h
    rw [Action.bind_ok hr]
    exact (hf x w' (hw.calm h) (ownEnv_of_continues h.toContinues ho)).after h
  | _ => exact .inr (h.bind fun _ _ hok => by cases hr.symm.trans hok)

/-- The end of a call throws what is pending. -/
theorem upheld_finish {w w' : World H} {result : Except EntryError Value}
    (h : w.Continues w') (hs : Sound strict w') (hattached : w'.attachment.isSome = true)
    (hresult : ∀ e, result = .error e → w.Calm w' ∧ Entry.MayFail strict e w') :
    Upheld strict w (finish result w') := by
  obtain ⟨a, ha⟩ := Option.isSome_iff_exists.1 hattached
  rw [finish_eq ha]
  cases a.locals.pop? none with
  | none => exact .inl ⟨_, _, rfl⟩
  | some closed =>
    obtain ⟨-, locals⟩ := closed
    right
    cases result with
    | error e =>
      obtain ⟨hcalm, hfail⟩ := hresult e rfl
      exact ⟨hcalm.trans (.of_attachment ha rfl (.inl rfl)), hfail⟩
    | ok v =>
      have htaken : w.Calm (w'.setAttachment (some { a with locals, pending := .empty })) :=
        ⟨h.trans (.of_attachment ha rfl), .inr rfl⟩
      dsimp only [settle]
      cases hslot : a.pending.slot with
      | none => exact htaken
      | some o =>
        refine ⟨htaken, fun hstrict o' ho' => ?_⟩
        cases ho'
        refine hs.isThrowable_pending hstrict ?_
        rw [World.pending, ha, Option.bind_some, hslot]

variable {call : Invoker (Recorded H)} (hcall : Guest.CallsConduct strict strict n call)
  {natives : NativeCall → Program H} (hnatives : ∀ c, (natives c).Proper c.env)
include hcall hnatives

theorem upholds_callBound (binding : Binding) (receiver : ObjectRef) (args : List Value) :
    Upholds strict n own (callBound (Program.code natives) call own binding receiver args) := by
  intro w hw ho
  have k := Entry.entry_rules (H := Recorded H) strict n
  obtain ⟨a, ha⟩ := Option.isSome_iff_exists.1 (isSome_of_ownEnv ho)
  have hpush : Entry.pushFrame (frameCapacity args) w =
      if a.locals.hasRoom (frameCapacity args) then .ok () (opened w a args)
      else .error (.alloc (.localLimit a.locals.limit)) w := pushFrame_eq ha _
  rw [callBound_eq]
  by_cases hroom : a.locals.hasRoom (frameCapacity args) = true
  · rw [if_pos hroom] at hpush
    rw [Action.bind_ok hpush]
    have hopened : w.Calm (opened w a args) := .of_attachment ha rfl (.inl rfl)
    have hmarshal := obeys_marshal k own binding receiver args _ (hw.calm hopened) rfl
    refine Upheld.after hopened ?_
    have ho₁ := ownEnv_of_continues hopened.toContinues ho
    have hw₁ := hw.calm hopened
    generalize opened w a args = w₁ at hmarshal ho₁ hw₁ ⊢
    cases hm : marshal own binding receiver args w₁ with
    | ok c w₂ =>
      rw [hm] at hmarshal
      have henv : c.env = own := by
        obtain ⟨handle, _, -, hm⟩ := Action.of_bind_ok hm
        obtain ⟨slots, _, -, hm⟩ := Action.of_bind_ok hm
        cases hm
        rfl
      have ho₂ := ownEnv_of_continues hmarshal.toContinues ho₁
      have hran := served_code hcall (hnatives c) (hw₁.calm hmarshal) (henv ▸ ho₂)
      cases hcode : Program.code natives call c w₂ with
      | ok word w₃ =>
        rw [hcode] at hran
        obtain ⟨hcontinues, hsound⟩ := hran
        rw [Action.bind_ok (Action.result_ok (callInFrame_ok hm hcode))]
        exact upheld_finish (hmarshal.toContinues.trans hcontinues) hsound
          (isSome_of_ownEnv (ownEnv_of_continues hcontinues ho₂)) nofun
      | error e w₃ => exact e.elim
      | panic m w₃ =>
        rw [hcode] at hran
        exact hran.elim
      | halt r w₃ =>
        rw [hcode] at hran
        rw [Action.bind_halt (Action.result_halt (callInFrame_native_halt hm hcode))]
        exact .inr hran
    | error e w₂ =>
      rw [hm] at hmarshal
      rw [Action.bind_ok (Action.result_error (callInFrame_error hm))]
      refine upheld_finish hmarshal.1.toContinues (hw₁.toSound.calm hmarshal.1)
        (isSome_of_ownEnv (ownEnv_of_continues hmarshal.1.toContinues ho₁)) fun e' he' => ?_
      cases he'
      exact hmarshal
    | panic m w₂ => exact absurd hm (neverPanics_marshal _ _ _ _ _ _ _)
    | halt r w₂ =>
      rw [hm] at hmarshal
      rw [Action.bind_halt (Action.result_halt (callInFrame_halt hm))]
      exact .inr hmarshal
  · rw [if_neg hroom] at hpush
    rw [Action.bind_error hpush]
    refine .inr ⟨.refl w, fun _ o ho => ?_⟩
    cases ho

theorem upholds_runMethod (m : MethodRef) (receiver : Option ObjectRef) (args : List Value) :
    Upholds strict n own (runMethod (Program.code natives) call own m receiver args) := by
  have k := Entry.entry_rules (H := Recorded H) strict n
  refine .bind (k.checks (.read _)) fun r => ?_
  refine .bind (k.resolve r m) fun binding => ?_
  refine .bind (k.checks .bridge) fun b => ?_
  have hbound : ∀ o, Upholds strict n own
      (callBound (Program.code natives) call own binding o args) := fun o =>
    upholds_callBound hcall hnatives binding o args
  dsimp only
  split
  · refine .bind (k.checks (.ofMapped _ fun _ _ h => nomatch h)) fun _ => ?_
    cases receiver with
    | none => exact .bind (k.mirror _) hbound
    | some o => exact hbound o
  · cases receiver with
    | none => exact .bind (k.mirror _) hbound
    | some o => exact hbound o

omit hcall hnatives in
theorem calm_attach {w : World H} {b : Bridge} (hb : w.bridge = some b) :
    w.Calm (w.attach b).2 := by
  rw [World.attach]
  cases ha : w.attachment with
  | some a => exact .refl w
  | none =>
    have hpending : w.pending = none := by rw [World.pending, ha]; rfl
    have hbridge : w.bridge.isSome = true := by rw [hb]; rfl
    exact {
      id := rfl
      depth := rfl
      limit := rfl
      waiting := rfl
      attached := fun a h => by cases ha.symm.trans h
      attaches := fun _ _ => hbridge
      bridged := fun h => h
      registry := .refl _
      heap := .refl _
      pending := .inl hpending.symm }

omit hcall hnatives in
theorem ownEnv_attach (w : World H) (b : Bridge) :
    ownEnv (w.attach b).2 = some (w.attach b).1 := by
  rw [World.attach]
  cases ha : w.attachment with
  | some a =>
    rw [ownEnv, ha]
    rfl
  | none => rfl

/-- Native methods are conducted. -/
theorem conducts_invoke : Guest.CallsConduct strict strict n
    (Native.invoke (Program.code natives) call) := by
  intro m receiver args w hw
  have hworld : (Action.world : Guest (Recorded H) _) w = .ok w w := rfl
  rw [Native.invoke, Action.bind_ok hworld]
  cases hb : w.bridge with
  | none => exact Guest.Conducts.plain (.throwFault _) w hw
  | some b =>
    obtain ⟨⟨env, w₁⟩, hattach⟩ : ∃ entered, w.attach b = entered := ⟨_, rfl⟩
    have hcalm := calm_attach hb
    have howned := ownEnv_attach w b
    have hstep : (Action.step fun w => w.attach b : Guest (Recorded H) Env) w = .ok env w₁ := by
      rw [Action.step, hattach]
    rw [hattach] at hcalm howned
    have hw₁ := hw.calm hcalm
    have hrun := upholds_runMethod hcall hnatives m receiver args w₁ hw₁ howned
    dsimp only
    rw [Action.bind_ok hstep]
    refine Outcome.Conducted.after hcalm ?_
    rcases hrun with ⟨v, w₂, hr⟩ | hrun
    · rw [Action.bind_ok (Action.result_error hr)]
      trivial
    · refine hrun.result_bind (fun x w₂ _ => .refl w₂) fun e w₂ hcalm₂ hfail => ?_
      show Outcome.Conducted strict _ w₂ ((Entry.throwable e >>= Action.fail : Guest _ Value) w₂)
      rcases Entry.throwable_cases (ε := ObjectRef) (hw₁.toSound.calm hcalm₂) hfail with
        ⟨v, hv⟩ | ⟨o, w₃, ho, hcalm₃, hthrowable⟩
      · rw [Action.bind_halt hv]
        trivial
      · rw [Action.bind_ok ho]
        exact ⟨hcalm₃, hthrowable⟩

end Calls

/-- Calls of methods are conducted, whatever proper native code they run. -/
theorem conducts_calls {natives : NativeCall → Program H}
    (hnatives : ∀ c, (natives c).Proper c.env) (strict : Bool) (fuel : Nat) :
    Guest.CallsConduct strict strict fuel
      (Guest.invokeWithin strict (Program.code natives) fuel) :=
  Guest.conducts_invokeWithin (fun hcall => conducts_invoke hcall hnatives) fuel

end GuestBoundary.Native
