import GuestBoundary.Proofs.Locals.Nesting
import GuestBoundary.Proofs.Native.Program

/-!
# What native code does to local references

Whatever runs on a thread performs operations on its table of local references.  `Did es` says that
it did, and that these operations are those of which `es` is the record: they change the number of
frames as the events say, go as deep, and delete the same handles (`Profile`).  Functions of the
interface do what is recorded of them, and so do native programs (`returns_run`), as long as the
methods do that they call.
-/

namespace GuestBoundary.Native

open Interface

variable {H ε α : Type}

/-! ## Operations and their record -/

/-- The operations on a table are those that the events record. -/
structure Profile (t : Locals α) (ops : List (Locals.Op α)) (es : List Event) : Prop where
  depth : ((t.after ops).depth : Int) = t.depth + Event.net es
  lowest : (t.lowest ops : Int) = t.depth + Event.low es
  deletes : ∀ h, .delete h ∈ ops ↔ .deleted h ∈ es
  noReset : .reset ∉ ops

namespace Profile

variable {t : Locals α} {ops ops' : List (Locals.Op α)} {es es' : List Event}

theorem nil (t : Locals α) : Profile t [] [] where
  depth := (Int.add_zero _).symm
  lowest := (Int.add_zero _).symm
  deletes := by simp
  noReset := List.not_mem_nil

theorem append (p : Profile t ops es) (p' : Profile (t.after ops) ops' es') :
    Profile t (ops ++ ops') (es ++ es') where
  depth := by
    rw [Locals.after_append, p'.depth, p.depth, Event.net_append, Int.add_assoc]
  lowest := by
    have := p.lowest
    have := p'.lowest
    have := p.depth
    rw [Locals.lowest_append, Event.low_append]
    omega
  deletes := by
    intro h
    rw [List.mem_append, List.mem_append, p.deletes, p'.deletes]
  noReset := by
    rw [List.mem_append, not_or]
    exact ⟨p.noReset, p'.noReset⟩

/-- One operation that is recorded by an event, or by none. -/
theorem single {op : Locals.Op α} (hd : ((t.perform op).2.depth : Int) = t.depth + Event.net es)
    (hlow : Event.low es = min 0 (Event.net es)) (hdel : ∀ h, op = .delete h ↔ .deleted h ∈ es)
    (hreset : op ≠ .reset) : Profile t [op] es where
  depth := hd
  lowest := by
    simp only [Locals.lowest]
    omega
  deletes := by
    intro h
    rw [List.mem_singleton, eq_comm]
    exact hdel h
  noReset := by
    rw [List.mem_singleton]
    exact hreset.symm

theorem delete (t : Locals α) (h : Handle) : Profile t [.delete h] [.deleted h] := by
  refine .single ?_ rfl (fun h' => ?_) (by simp)
  · rw [Locals.perform, Locals.delete?_eq]
    by_cases hl : t.isLive h = true
    · rw [if_pos hl, Locals.depth_eq, Locals.vacate_frames]
      exact (Int.add_zero _).symm
    · rw [if_neg hl]
      exact (Int.add_zero _).symm
  · rw [List.mem_singleton, Locals.Op.delete.injEq, Event.deleted.injEq, eq_comm]

theorem push {e : Event} {n : Nat} (hroom : t.hasRoom n = true) (he : e.change = 1) :
    Profile t [.push n] [e] := by
  have hnet : Event.net [e] = 1 := by rw [Event.net, he]; rfl
  refine .single ?_ ?_ (fun h => ?_) (by simp)
  · rw [Locals.perform_push hroom, hnet, Locals.depth_eq, Locals.opened_frames]
    rfl
  · rw [hnet, Event.low, he]
    decide
  · rw [List.mem_singleton]
    apply iff_of_false (by simp)
    rintro rfl
    exact absurd (show (0 : Int) = 1 from he) (by decide)

theorem pop {e : Event} {result : Option α} {r : Except AllocError Handle} {t' : Locals α}
    (hp : t.pop? result = some (r, t')) (he : e.change = -1) : Profile t [.pop result] [e] := by
  have hnet : Event.net [e] = -1 := by rw [Event.net, he]; rfl
  have hdepth := Locals.depth_pop? hp
  refine .single ?_ ?_ (fun h => ?_) (by simp)
  · rw [Locals.perform_pop hp, hnet]
    omega
  · rw [hnet, Event.low, he]
    decide
  · rw [List.mem_singleton]
    apply iff_of_false (by simp)
    rintro rfl
    exact absurd (show (0 : Int) = -1 from he) (by decide)

end Profile

/-- The table of the running thread was worked on as the events record. -/
def Did (es : List Event) (w w' : World H) : Prop :=
  ∀ a, w.attachment = some a → ∃ a' ops, w'.attachment = some a' ∧
    a'.locals = a.locals.after ops ∧ Profile a.locals ops es

namespace Did

variable {es es' : List Event} {w w' w'' : World H}

theorem of_attachment_eq (h : w'.attachment = w.attachment) : Did [] w w' := by
  intro a ha
  exact ⟨a, [], h.trans ha, rfl, .nil _⟩

theorem append (h : Did es w w') (h' : Did es' w' w'') : Did (es ++ es') w w'' := by
  intro a ha
  obtain ⟨a', ops, ha', hl, p⟩ := h a ha
  obtain ⟨a'', ops', ha'', hl', p'⟩ := h' a' ha'
  rw [hl] at hl' p'
  exact ⟨a'', ops ++ ops', ha'', by rw [hl', Locals.after_append], p.append p'⟩

theorem pending (w : World H) (f : Pending ObjectRef → Pending ObjectRef) :
    Did [] w (w.updatePending f) := by
  intro a ha
  refine ⟨{ a with pending := f a.pending }, [], ?_, rfl, .nil _⟩
  show w.attachment.map _ = _
  rw [ha]
  rfl

/-- One operation on the table. -/
theorem single {a : Attachment} (ha : w.attachment = some a) {op : Locals.Op ObjectRef}
    (p : Profile a.locals [op] es) :
    Did es w (w.setAttachment (some { a with locals := (a.locals.perform op).2 })) := by
  intro a' ha'
  rw [ha] at ha'
  obtain rfl := Option.some.inj ha'
  exact ⟨_, [op], rfl, rfl, p⟩

end Did

/-- The table was worked on, and nothing of it is recorded. -/
structure Quiet (w w' : World H) : Prop where
  host : w'.host = w.host
  did : Did [] w w'

theorem quiet_sideNeutral : SideNeutral (Quiet (H := H)) where
  refl := fun _ => ⟨rfl, .of_attachment_eq rfl⟩
  trans := fun h h' => ⟨h'.host.trans h.host, h.did.append h'.did⟩
  elsewhere := fun thread host => ⟨host, .of_attachment_eq (congrArg Thread.attachment thread)⟩
  inCall := fun h => ⟨h.host, h.did⟩

theorem quiet_neutral : EntryNeutral (Quiet (H := H)) where
  toGuestNeutral := quiet_sideNeutral.callNeutral.toGuestNeutral
  withBridge := fun _ _ => quiet_sideNeutral.elsewhere rfl rfl
  pending := fun w f => ⟨rfl, .pending w f⟩
  create := by
    intro w a o h locals ha hc
    have hp : (a.locals.perform (.create o)).2 = locals := by rw [Locals.perform, hc]
    refine ⟨rfl, hp ▸ .single ha (.single ?_ rfl (by simp) (by simp))⟩
    rw [hp, Locals.depth_create hc]
    exact (Int.add_zero _).symm
  ensure := by
    intro w a c locals ha he
    have hp : (a.locals.perform (.ensure c)).2 = locals := by rw [Locals.perform, he]
    refine ⟨rfl, hp ▸ .single ha (.single ?_ rfl (by simp) (by simp))⟩
    rw [hp]
    rw [Locals.ensure_eq] at he
    split at he
    · cases he
      exact (Int.add_zero _).symm
    · cases he

/-- The table was worked on as the record says that grew on the way. -/
def Followed (w w' : World (Recorded H)) : Prop :=
  ∃ es, w'.host.trace = w.host.trace ++ es ∧ Did es w w'

theorem Quiet.followed {w w' : World (Recorded H)} (h : Quiet w w') : Followed w w' :=
  ⟨[], by rw [h.host, List.append_nil], h.did⟩

theorem followed_sideNeutral : SideNeutral (Followed (H := H)) where
  refl := fun w => (quiet_sideNeutral.refl w).followed
  trans := by
    rintro w w' w'' ⟨es, ht, hd⟩ ⟨es', ht', hd'⟩
    exact ⟨es ++ es', by rw [ht', ht, List.append_assoc], hd.append hd'⟩
  elsewhere := fun thread host => (quiet_sideNeutral.elsewhere thread host).followed
  inCall := fun ⟨es, ht, hd⟩ => ⟨es, ht, hd⟩

theorem followed_neutral : EntryNeutral (Followed (H := H)) where
  toGuestNeutral := followed_sideNeutral.callNeutral.toGuestNeutral
  withBridge := fun _ _ => followed_sideNeutral.elsewhere rfl rfl
  pending := fun w f => (quiet_neutral.pending w f).followed
  create := fun ha hc => (quiet_neutral.create ha hc).followed
  ensure := fun ha he => (quiet_neutral.ensure ha he).followed

/-! ## Frames of the running thread -/

theorem onAttachment_of_none {w : World H} (h : w.attachment = none)
    (f : Attachment → Except EntryError (α × Attachment)) :
    Entry.onAttachment f w = .halt .misuse w := by
  unfold Entry.onAttachment
  rw [h]

section Frames

variable {w : World H} {a : Attachment} (ha : w.attachment = some a)
include ha

theorem onAttachment_eq (f : Attachment → Except EntryError (α × Attachment)) :
    Entry.onAttachment f w =
      match f a with
      | .ok (x, a) => .ok x (w.setAttachment (some a))
      | .error e => .error e w := by
  unfold Entry.onAttachment
  cases hf : f a with
  | ok r => simp only [ha, hf]
  | error e => simp only [ha, hf]

theorem pushFrame_eq (n : Nat) : Entry.pushFrame n w =
    if a.locals.hasRoom n then
      .ok () (w.setAttachment (some { a with locals := a.locals.opened n }))
    else .error (.alloc (.localLimit a.locals.limit)) w := by
  rw [Entry.pushFrame, onAttachment_eq ha, Locals.push_eq]
  cases a.locals.hasRoom n <;> rfl

theorem popFrame_eq (result : Option ObjectRef) : Entry.popFrame result w =
    match a.locals.pop? result with
    | none => .error (.contract .unbalancedFrame) w
    | some (.ok h, locals) => .ok h (w.setAttachment (some { a with locals }))
    | some (.error e, locals) => .error (.alloc e) (w.setAttachment (some { a with locals })) := by
  show Action.andThen _ _ w = _
  rw [Action.andThen, onAttachment_eq ha]
  rcases a.locals.pop? result with _ | ⟨promoted, locals⟩
  · rfl
  · cases promoted <;> rfl

end Frames

/-! ## Calls of the interface -/

/-- What the record says after a call, once what is left to record is added. -/
def Owes (es : List Event) (w w' : World (Recorded H)) : Prop :=
  ∃ es', w'.host.trace = w.host.trace ++ es' ∧ Did (es' ++ es) w w'

theorem Followed.owes {w w' : World (Recorded H)} (h : Followed w w') : Owes [] w w' := by
  obtain ⟨es, ht, hd⟩ := h
  exact ⟨es, ht, by rwa [List.append_nil]⟩

theorem Did.owes {es : List Event} {w w' : World (Recorded H)} (hh : w'.host = w.host)
    (h : Did es w w') : Owes es w w' := ⟨[], by rw [hh, List.append_nil], h⟩

/-- Without an attachment there is nothing to say about references. -/
theorem Did.of_none {es : List Event} {w w' : World H} (h : w.attachment = none) :
    Did es w w' := by
  intro a ha
  rw [h] at ha
  cases ha

section Calls

variable {w : World (Recorded H)}

theorem pushLocalFrame_cases (c : Int32) (w : World (Recorded H)) :
    (∃ a n, w.attachment = some a ∧ a.locals.hasRoom n = true ∧ pushLocalFrame c w =
      .ok () (w.setAttachment (some { a with locals := a.locals.opened n }))) ∨
    (∃ e, pushLocalFrame c w = .error e w) ∨ ∃ r, pushLocalFrame c w = .halt r w := by
  by_cases hneg : c < 0
  · obtain ⟨e, he⟩ : ∃ e, Entry.capacity c w = .error e w := by
      rw [Entry.capacity, if_pos hneg]
      exact ⟨_, rfl⟩
    exact .inr (.inl ⟨e, Action.bind_error he⟩)
  · have hc : Entry.capacity c w = .ok c.toInt.toNat w := by
      rw [Entry.capacity, if_neg hneg]
      rfl
    rw [pushLocalFrame, Action.bind_ok hc]
    cases ha : w.attachment with
    | none =>
      exact .inr (.inr ⟨_, onAttachment_of_none ha _⟩)
    | some a =>
      rw [pushFrame_eq ha]
      split
      next hroom => exact .inl ⟨a, _, rfl, hroom, rfl⟩
      next => exact .inr (.inl ⟨_, rfl⟩)

/-- Opening a frame is recorded if there is room for one. -/
theorem returns_pushLocalFrame (call : Invoker (Recorded H)) (env : Option Env) (c : Int32)
    (w : World (Recorded H)) :
    (callFunction call env .pushLocalFrame [.primitive (.int c)] w :
      Outcome (Recorded H) ε Answer).Returns fun answer w' =>
        Owes (Event.ofCall .pushLocalFrame [.primitive (.int c)] answer) w w' := by
  apply returns_guarded env
  rcases pushLocalFrame_cases c w with ⟨a, n, ha, hroom, h⟩ | ⟨e, h⟩ | ⟨r, h⟩
  · refine returns_contain_ok _ (Action.bind_ok h) ?_
    rw [Event.ofCall, if_pos (by decide)]
    exact Did.owes rfl (Locals.perform_push hroom ▸ Did.single ha (.push hroom rfl))
  · refine returns_contain_error quiet_neutral _ (Action.bind_error h) fun w' h' => ?_
    rw [Event.ofCall, if_neg (by decide)]
    exact h'.followed.owes
  · exact returns_contain_halt _ (Action.bind_halt h)

/-- Closing a frame either succeeds or ends the run. -/
theorem returns_popLocalFrame (call : Invoker (Recorded H)) (env : Option Env) (h : Handle)
    (w : World (Recorded H)) :
    (callFunction call env .popLocalFrame [.handle h] w :
      Outcome (Recorded H) ε Answer).Returns fun answer w' =>
        Owes (Event.ofCall .popLocalFrame [.handle h] answer) w w' := by
  apply returns_guarded env
  have hpop : popLocalFrame h w = Entry.popFrame (w.resolve h) w := rfl
  cases ha : w.attachment with
  | none =>
    have hhalt : Entry.popFrame (w.resolve h) w = .halt .misuse w :=
      Action.bind_halt (onAttachment_of_none ha _)
    exact returns_contain_halt _ (Action.bind_halt (hpop.trans hhalt))
  | some a =>
    rw [popFrame_eq ha] at hpop
    rcases hp : a.locals.pop? (w.resolve h) with _ | ⟨r, locals⟩
    · rw [hp] at hpop
      exact returns_contain_contract _ (Action.bind_error hpop)
    · have hdid : Did [.popped] w (w.setAttachment (some { a with locals })) :=
        Locals.perform_pop hp ▸ Did.single ha (.pop hp rfl)
      rw [hp] at hpop
      cases r with
      | ok h' => exact returns_contain_ok _ (Action.bind_ok hpop) (hdid.owes rfl)
      | error e =>
        refine returns_contain_error quiet_neutral _ (Action.bind_error hpop) fun w' h' => ?_
        exact Did.owes h'.host (hdid.append h'.did)

theorem not_isLive_of_isNull {t : Locals α} {h : Handle} (hnull : h.isNull = true) :
    ¬ t.isLive h = true := by
  intro hl
  obtain ⟨o, ho⟩ := Locals.isLive_iff.1 hl
  have htag := (Locals.resolve_eq_some_iff.1 ho).1
  rw [Handle.isNull, beq_iff_eq] at hnull
  rw [Handle.tag, hnull] at htag
  exact absurd htag (by decide)

theorem deleteLocalRef_cases (h : Handle) (w : World H) :
    (∃ w', deleteLocalRef h w = .ok () w' ∧ w'.host = w.host ∧ Did [.deleted h] w w') ∨
    (∃ v, deleteLocalRef h w = .error (.contract v) w) ∨ ∃ r, deleteLocalRef h w = .halt r w := by
  by_cases hnull : h.isNull = true
  · refine .inl ⟨w, by rw [deleteLocalRef, if_pos hnull]; rfl, rfl, fun a ha => ?_⟩
    refine ⟨a, [.delete h], ha, ?_, .delete _ _⟩
    rw [Locals.after_cons, Locals.after_nil, Locals.perform, Locals.delete?_eq,
      if_neg (not_isLive_of_isNull hnull)]
  · rw [deleteLocalRef, if_neg hnull]
    cases ha : w.attachment with
    | none => exact .inr (.inr ⟨_, onAttachment_of_none ha _⟩)
    | some a =>
      rw [onAttachment_eq ha]
      cases hd : a.locals.delete? h with
      | none => exact .inr (.inl ⟨_, rfl⟩)
      | some locals =>
        have hlocals : (a.locals.perform (.delete h)).2 = locals := by rw [Locals.perform, hd]
        exact .inl ⟨_, rfl, rfl, hlocals ▸ Did.single ha (.delete _ _)⟩

/-- Deleting a reference either succeeds or ends the run. -/
theorem returns_deleteLocalRef (call : Invoker (Recorded H)) (env : Option Env) (h : Handle)
    (w : World (Recorded H)) :
    (callFunction call env .deleteLocalRef [.handle h] w :
      Outcome (Recorded H) ε Answer).Returns fun answer w' =>
        Owes (Event.ofCall .deleteLocalRef [.handle h] answer) w w' := by
  apply returns_guarded env
  rcases deleteLocalRef_cases h w with ⟨w', hb, hh, hd⟩ | ⟨v, hb⟩ | ⟨r, hb⟩
  · exact returns_contain_ok _ (Action.bind_ok hb) (hd.owes hh)
  · exact returns_contain_contract _ (Action.bind_error hb)
  · exact returns_contain_halt _ (Action.bind_halt hb)

/-- A call of the interface does what the record says of it. -/
theorem returns_callFunction_owes {call : Invoker (Recorded H)} (hcall : CallsKeep Followed call)
    (env : Option Env) {f : Function} {args : List Argument} (hs : Shaped f args)
    (w : World (Recorded H)) :
    (callFunction call env f args w : Outcome (Recorded H) ε Answer).Returns fun answer w' =>
      Owes (Event.ofCall f args answer) w w' := by
  by_cases hf : f.isNeutral = true
  · have hnone : ∀ answer, Event.ofCall f args answer = [] := by
      intro answer
      cases f <;> first | rfl | cases hf
    simp only [hnone]
    exact (returns_callFunction followed_neutral hcall env hs hf w).mono fun _ _ h => h.owes
  · cases hs with
    | pushLocalFrame c => exact returns_pushLocalFrame call env c w
    | popLocalFrame h => exact returns_popLocalFrame call env h w
    | deleteLocalRef h => exact returns_deleteLocalRef call env h w
    | _ => exact absurd rfl hf

end Calls

/-! ## Programs -/

/-- What is left to record is recorded. -/
theorem returns_record {es : List Event} {w w' : World (Recorded H)} (h : Owes es w w') :
    (record es w' : Outcome (Recorded H) ε Unit).Returns fun _ w'' => Followed w w'' := by
  obtain ⟨es', ht, hd⟩ := h
  refine ⟨es' ++ es, ?_, hd⟩
  show w'.host.trace ++ es = _
  rw [ht, List.append_assoc]

/-- A program does what the record says. -/
theorem returns_run {call : Invoker (Recorded H)} (hcall : CallsKeep Followed call)
    (program : Program H) (w : World (Recorded H)) :
    (program.run call w).Returns fun _ w' => Followed w w' := by
  induction program generalizing w with
  | done word => exact followed_neutral.refl w
  | call env f args hs next ih =>
    refine (returns_callFunction_owes hcall env hs w).bind fun answer w' h => ?_
    refine (returns_record h).bind fun _ w'' h' => ?_
    exact (ih answer w'').mono fun _ _ => followed_neutral.trans h'
  | stub env name next ih =>
    refine (returns_callStub followed_neutral env name w).bind fun answer w' h => ?_
    exact (ih answer w').mono fun _ _ => followed_neutral.trans h
  | aside a next ih =>
    have h : Followed w (a.act w) := by
      refine ⟨[], ?_, .of_attachment_eq (congrArg Thread.attachment (a.thread w))⟩
      rw [a.trace, List.append_nil]
    exact (ih (a.act w) (a.act w)).mono fun _ _ => followed_neutral.trans h

/-- A native function that is a program leaves a record of itself. -/
def Entered (es : List Event) (w w' : World (Recorded H)) : Prop :=
  w'.host.trace = w.host.trace ++ .entered :: es ++ [.left] ∧ Did es w w'

theorem returns_code {call : Invoker (Recorded H)} (hcall : CallsKeep Followed call)
    (natives : NativeCall → Program H) (c : NativeCall) (w : World (Recorded H)) :
    (Program.code natives call c w).Returns fun _ w' => ∃ es, Entered es w w' := by
  let w₁ := { w with host := { w.host with trace := w.host.trace ++ [Event.entered] } }
  show ((do
    let word ← (natives c).run call
    record [.left]
    return word) w₁).Returns fun _ w' => ∃ es, Entered es w w'
  refine (returns_run hcall (natives c) w₁).bind fun word w₂ ⟨es, ht, hd⟩ => ⟨es, ?_, hd⟩
  show w₂.host.trace ++ [.left] = _
  rw [ht]
  simp [w₁]

end GuestBoundary.Native
