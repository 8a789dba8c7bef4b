import GuestBoundary.Proofs.Native.Calls

/-!
# Native calls that are not balanced

A native call closes the innermost frame when its function returns, and breaks a rule only if there
is no frame but the outermost one.  So a function that leaves frames open, or closes more than it
opened, is found out only at the bottom; elsewhere its caller pays for it, with frames that stay
open or with references that are gone.
-/

namespace GuestBoundary.Native

variable {H α : Type}

/-- What a call does to the table leaves the caller alone: as many frames are closed as opened, no
frame is closed that owns a reference, unless that is deleted, and nothing is left over. -/
structure Harmless (t : Locals α) (ops : List (Locals.Op α)) (es : List Event) : Prop where
  net : Event.net es = 0
  stays : ∀ h o, t.resolve h = some o → .deleted h ∉ es →
    (t.ownerOf h.index : Int) ≤ t.depth + Event.low es
  nothing : ∀ h, ¬ t.Leftover ops h

theorem Profile.intact_iff {limit : Nat} {before ops : List (Locals.Op α)} {es : List Event}
    (hlt : ∀ i, (Locals.History.run limit (before ++ ops)).released i < Handle.generations)
    (p : Profile (Locals.History.run limit before).table ops es) :
    Intact es (Locals.History.run limit before).table
        ((Locals.History.run limit before).table.after ops) ↔
      Harmless (Locals.History.run limit before).table ops es := by
  have hkept := Locals.resolve_kept_iff hlt p.noReset
  simp only [p.deletes, Locals.table_run_append] at hkept
  have hdepth := p.depth
  have hlowest := p.lowest
  constructor
  · intro h
    obtain ⟨hstays, hnothing⟩ := hkept.1 h.resolve
    refine ⟨?_, fun h' o ho hdel => ?_, hnothing⟩
    · have := h.depth
      omega
    · have := hstays h' o ho hdel
      omega
  · intro h
    refine ⟨?_, hkept.2 ⟨fun h' o ho hdel => ?_, h.nothing⟩⟩
    · have := h.net
      omega
    · have := h.stays h' o ho hdel
      omega

theorem net_call (es : List Event) : Event.net (.entered :: es ++ [.left]) = Event.net es := by
  rw [Event.net_append, Event.net]
  show 1 + Event.net es + (-1 + 0) = _
  omega

/-- The end of a call whose function ran: a rule is broken if it closed the frame of the call and
all around it; otherwise the operations are those that were recorded. -/
theorem finish_of_did {w w₂ w' : World H} {a : Attachment} {args : List Value} {es : List Event}
    {r : Except EntryError Value} {v : Value}
    (hroom : a.locals.hasRoom (frameCapacity args) = true) (hdid : Did es (opened w a args) w₂)
    (h : .returned r w' = finish (.ok v) w₂) :
    (r = .error (.contract .unbalancedFrame) ∧ (a.locals.depth : Int) + Event.net es = 0) ∨
    (r ≠ .error (.contract .unbalancedFrame) ∧ (a.locals.depth : Int) + Event.net es ≠ 0 ∧
      ∃ a' ops, w'.attachment = some a' ∧ a'.locals = a.locals.after ops ∧
        Profile a.locals ops (.entered :: es ++ [.left])) := by
  obtain ⟨a₂, ops, ha₂, hlocals, p⟩ := hdid.inside
  have hdepth := p.depth
  have hopened : ((a.locals.opened (frameCapacity args)).depth : Int) = a.locals.depth + 1 := rfl
  rw [finish_eq ha₂, hlocals] at h
  cases hp : ((a.locals.opened (frameCapacity args)).after ops).pop? none with
  | none =>
    have hone := Locals.pop?_eq_none_iff.1 hp
    rw [hp] at h
    refine .inl ⟨?_, by omega⟩
    cases r <;> cases h
    rfl
  | some closed =>
    obtain ⟨r', t⟩ := closed
    obtain ⟨ht, p'⟩ := p.bracket hroom hp
    have hmore := Locals.depth_pop? hp
    have hpos := Locals.depth_pos t
    rw [hp] at h
    obtain ⟨rfl, hthrown, hvalue⟩ := of_settle_ok h
    refine .inr ⟨?_, by omega, _, _, rfl, ht, p'⟩
    rintro rfl
    cases hs : a₂.pending.slot with
    | none => cases hvalue hs
    | some o => cases (hthrown o).2 hs

/-- A call whose function ran breaks a rule exactly if it closed the frame of the call and all
around it.  Otherwise as many more frames are open as it opened and did not close, and the caller is
left intact exactly if the call was harmless, unless a slot ran out of generations. -/
theorem caller_intact_iff (natives : NativeCall → Program H) (fuel : Nat) (env : Env)
    (binding : Binding) (receiver : ObjectRef) (args : List Value) {w w' : World (Recorded H)}
    {a : Attachment} {r : Except EntryError Value} {es : List Event} {limit : Nat}
    {before : List (Locals.Op ObjectRef)} (ha : w.attachment = some a)
    (hlocals : a.locals = (Locals.History.run limit before).table)
    (hcall : ((callBound (Program.code natives) (Guest.invoke (Program.code natives) fuel)
      env binding receiver args).result w : Outcome _ Empty _) = .ok r w')
    (htrace : w'.host.trace = w.host.trace ++ .entered :: es ++ [.left]) :
    (r = .error (.contract .unbalancedFrame) ↔ (a.locals.depth : Int) + Event.net es = 0) ∧
    (r ≠ .error (.contract .unbalancedFrame) → ∃ a', w'.attachment = some a' ∧
      (a'.locals.depth : Int) = a.locals.depth + Event.net es ∧
      (∃ ops, a'.locals = a.locals.after ops ∧
        Profile a.locals ops (.entered :: es ++ [.left])) ∧
      ∀ ops, a'.locals = a.locals.after ops →
        Profile a.locals ops (.entered :: es ++ [.left]) →
        (∀ i, (Locals.History.run limit (before ++ ops)).released i < Handle.generations) →
        (Intact (.entered :: es ++ [.left]) a.locals a'.locals ↔
          Harmless a.locals ops (.entered :: es ++ [.left]))) := by
  have hcourse := callBound_course natives env binding receiver args
    (keeps_recorded_invoke natives fuel) ha
  rw [Action.returned_of_result hcall] at hcourse
  generalize ho : Outcome.returned r w' = o at hcourse
  have hran : ∀ {w₁ : World (Recorded H)}, w₁.host.trace = w.host.trace → w'.host ≠ w₁.host := by
    intro w₁ h h'
    have hlength := congrArg List.length htrace
    rw [h', h, List.length_append, List.length_append, List.length_cons] at hlength
    omega
  cases hcourse with
  | halted r' w₁ => cases r <;> cases ho
  | refused hprepare =>
    cases r <;> cases ho
    exact absurd rfl (hran rfl)
  | unprepared hroom hprepare hhost hdid =>
    obtain ⟨a₁, -, ha₁, -⟩ := hdid.inside
    exact absurd (host_of_finish ha₁ ho) (hran (congrArg Recorded.trace hhost))
  | @ran c w₁ word w₂ es' hroom hprepare hcode htrace' hdid =>
    obtain rfl : es' = es := by
      obtain ⟨a₂, -, ha₂, -⟩ := hdid.inside
      rw [host_of_finish ha₂ ho, htrace'] at htrace
      simpa using htrace
    rcases finish_of_did hroom hdid ho with ⟨hr, hzero⟩ | ⟨hr, hne, a', ops, ha', hl, p⟩
    · exact ⟨iff_of_true hr hzero, fun h => absurd hr h⟩
    · refine ⟨iff_of_false hr hne, fun _ => ⟨a', ha', ?_, ⟨ops, hl, p⟩, fun ops' hl' p' hlt => ?_⟩⟩
      · rw [hl, p.depth, net_call]
      · rw [hlocals] at p' hl' ⊢
        rw [hl']
        exact p'.intact_iff hlt

/-- Opens a frame and returns. -/
def opensFrame (c : NativeCall) : Program Unit :=
  .call (some c.env) .pushLocalFrame [.primitive (.int 8)] (.pushLocalFrame 8) fun _ => .done 0

/-- Closes a frame and returns. -/
def closesFrame (c : NativeCall) : Program Unit :=
  .call (some c.env) .popLocalFrame [.handle .null] (.popLocalFrame .null) fun _ => .done 0

/-- What a call of `closesFrame` does to the table. -/
def closingOps : List (Locals.Op ObjectRef) :=
  [.push 16, .create (some ⟨0⟩), .pop none, .pop none]

theorem callPlain_closesFrame : ∃ w', ((callPlain closesFrame).result callerThread :
      Outcome _ Empty _) = .ok (.ok .void) w' ∧
    w'.host.trace = [.entered, .popped, .left] ∧
    w'.attachment = some ⟨0, callerLocals.after closingOps, .empty⟩ := ⟨_, rfl, rfl, rfl⟩

theorem closesFrame_harms_caller :
    ∃ w' a', ((callPlain closesFrame).result callerThread : Outcome _ Empty _) =
        .ok (.ok .void) w' ∧
      w'.attachment = some a' ∧ ¬ Intact [.entered, .popped, .left] callerLocals a'.locals := by
  obtain ⟨w', hcall, htrace, hattachment⟩ := callPlain_closesFrame
  have htrace' : w'.host.trace = callerThread.host.trace ++ .entered :: [.popped] ++ [.left] :=
    htrace
  obtain ⟨-, hreturned⟩ := caller_intact_iff closesFrame 0 _ plainBinding ⟨0⟩ []
    (a := ⟨0, callerLocals, .empty⟩) rfl (Locals.table_run_append 4096 [] _).symm hcall htrace'
  obtain ⟨a', ha', -, -, hiff⟩ := hreturned nofun
  refine ⟨w', a', hcall, ha', fun hintact => ?_⟩
  have hlocals : a'.locals = callerLocals.after closingOps := by
    rw [hattachment] at ha'
    cases ha'
    rfl
  have hprofile : Profile callerLocals closingOps [.entered, .popped, .left] := by
    refine ⟨rfl, rfl, fun h => ?_, ?_⟩ <;> simp [closingOps]
  have hlt : ∀ i, (Locals.History.run 4096 ([.push 16, .create (some ⟨0⟩)] ++
      closingOps)).released i < Handle.generations := by
    intro i
    have := Locals.History.released_run_le_length 4096
      ([.push 16, .create (some ⟨0⟩)] ++ closingOps) i
    exact Nat.lt_of_le_of_lt this (by decide)
  exact absurd ((hiff _ hlocals hprofile hlt).1 hintact).net (by decide)

/-- A function that leaves a frame open leaves it to its caller; one that closes a frame too many
releases the references of its caller. -/
theorem caller_not_intact :
    (∃ w' a', ((callPlain opensFrame).result callerThread : Outcome _ Empty _) =
        .ok (.ok .void) w' ∧
      w'.attachment = some a' ∧ a'.locals.depth = callerLocals.depth + 1) ∧
    ∃ w' a', ((callPlain closesFrame).result callerThread : Outcome _ Empty _) =
        .ok (.ok .void) w' ∧
      w'.attachment = some a' ∧ a'.locals.depth + 1 = callerLocals.depth ∧
      callerLocals.resolve (callerLocals.handleAt 0) = some ⟨0⟩ ∧
      a'.locals.resolve (callerLocals.handleAt 0) = none :=
  ⟨⟨_, _, rfl, rfl, rfl⟩, _, _, rfl, rfl, rfl, rfl, rfl⟩

end GuestBoundary.Native
