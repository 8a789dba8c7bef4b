import GuestBoundary.Proofs.Exceptions.Discipline
import GuestBoundary.Proofs.Exceptions.Probes
import GuestBoundary.Proofs.Interface.FieldValues
import GuestBoundary.Proofs.Native.Attachments

/-!
# Queries of the pending throwable

Whether a throwable is pending is read off the thread.  To hand out the pending one, a local
reference is made, and where there is no room for it the query fails like any other function: it
answers null and leaves a new throwable pending.  So a query changes what is pending just if
something is pending and the table of local references is full (`queries_keep_pending_unless_full`).
-/

namespace GuestBoundary

variable {H : Type}

/-- The handle of a slot is not null. -/
theorem Locals.handleAt_ne_null {α : Type} (t : Locals α) (i : Nat) : t.handleAt i ≠ .null := by
  intro h
  have hraw : (t.handleAt i).raw.toNat = 0 := congrArg (fun h => h.raw.toNat) h
  simp only [Locals.handleAt, Handle.encode, Handle.generations, Handle.indexUnit, RefKind.code,
    UInt64.toNat_ofNat'] at hraw
  omega

/-- The throwable of a fault is made and left pending on a thread that is attached. -/
theorem World.attachment_raised {w : World H} {a : Attachment} (ha : w.attachment = some a)
    (fault : GuestFault) :
    (w.raised fault).attachment = some { a with pending := ⟨some ⟨w.heap.size⟩⟩ } := by
  have hmade : (w.materialize fault).2.attachment = some a := by
    rw [attachment, (w.sameSide_materialize fault).thread]
    exact ha
  rw [raised, setPending, updatePending, hmade]
  rfl

theorem World.attachment_attach {w : World H} (hnone : w.attachment = none) (b : Bridge) :
    (w.attach b).2.attachment =
      some ⟨w.attachments, .empty b.config.maxLocals.toNat, .empty⟩ := by
  rw [attach, hnone]
  rfl

/-- No local reference can be made on the running thread. -/
def World.LocalsFull (w : World H) : Prop :=
  ∃ a, w.attachment = some a ∧ a.locals.vacancy? = none

namespace Interface

open Entry

variable {w w' : World H} {a : Attachment} {o : ObjectRef} {x : Option ObjectRef}
  {call : Invoker H}

/-! ## Making the reference -/

theorem newLocal_null (ha : w.attachment = some a) : newLocal none w = .ok .null w := by
  rw [newLocal, Native.onAttachment_eq ha]
  exact congrArg (Outcome.ok _) (Native.setAttachment_self ha)

theorem newLocal_full (ha : w.attachment = some a) (hfull : a.locals.vacancy? = none)
    (o : ObjectRef) :
    newLocal (some o) w = .error (.alloc (.localLimit a.locals.limit)) w := by
  rw [newLocal, Native.onAttachment_eq ha, Locals.create_some, hfull]

theorem newLocal_vacant (ha : w.attachment = some a) {i : Nat} {free : List Nat}
    (hvacancy : a.locals.vacancy? = some (i, free)) (o : ObjectRef) :
    newLocal (some o) w = .ok ((a.locals.fill i free o).handleAt i)
      (Native.withLocals w a (a.locals.fill i free o)) := by
  rw [newLocal, Native.onAttachment_eq ha, Locals.create_some, hvacancy]
  rfl

theorem pending_withLocals (ha : w.attachment = some a) (t : Locals ObjectRef) :
    (Native.withLocals w a t).pending = w.pending := by
  rw [World.pending, World.pending, ha]
  rfl

/-! ## The two functions -/

theorem exceptionOccurred_eq (hpending : w.pending = x) :
    (exceptionOccurred : Entry H Handle) w = newLocal x w := by
  subst hpending
  rfl

/-- Asking whether a throwable is pending changes nothing at all. -/
theorem ask_exceptionCheck (call : Invoker H) (hw : w.IsAttached) :
    ask call .exceptionCheck [] w = .ok (.plain (.boolean w.pending.isSome)) w :=
  callFunction_done hw rfl

section Occurred

variable (ha : w.attachment = some a)
include ha

theorem occurred_of_newLocal (hpending : w.pending = x) {h : Handle}
    (hlocal : newLocal x w = .ok h w') :
    ask call .exceptionOccurred [] w = .ok (.plain (.handle h)) w' := by
  have hoccurred : (exceptionOccurred : Entry H Handle) w = .ok h w' := by
    rw [exceptionOccurred_eq hpending, hlocal]
  exact callFunction_done (by rw [ha]; rfl) (Action.bind_ok hoccurred)

/-- Where nothing is pending, nothing changes. -/
theorem occurred_of_none (hnone : w.pending = none) :
    ask call .exceptionOccurred [] w = .ok (.plain (.handle .null)) w :=
  occurred_of_newLocal ha hnone (newLocal_null ha)

theorem occurred_of_vacant (ho : w.pending = some o) {i : Nat} {free : List Nat}
    (hvacancy : a.locals.vacancy? = some (i, free)) :
    ask call .exceptionOccurred [] w =
      .ok (.plain (.handle ((a.locals.fill i free o).handleAt i)))
        (Native.withLocals w a (a.locals.fill i free o)) :=
  occurred_of_newLocal ha ho (newLocal_vacant ha hvacancy o)

theorem occurred_of_full (ho : w.pending = some o) (hfull : a.locals.vacancy? = none) :
    ask call .exceptionOccurred [] w = .ok (.plain (.handle .null))
      (w.raised ⟨.outOfMemory, (AllocError.localLimit a.locals.limit).message⟩) := by
  have hoccurred : (exceptionOccurred : Entry H Handle) w =
      .error (.alloc (.localLimit a.locals.limit)) w := by
    rw [exceptionOccurred_eq ho, newLocal_full ha hfull]
  exact callFunction_fails (by rw [ha]; rfl) rfl (Action.bind_error hoccurred)

end Occurred

/-! ## Queries -/

/-- What queries of the pending throwable answer, and what they change. -/
structure Queries (call : Invoker H) (w : World H) : Prop where
  /-- Whether one is pending is answered as it is, and nothing changes. -/
  check : ask call .exceptionCheck [] w = .ok (.plain (.boolean w.pending.isSome)) w
  /-- If none is pending, null is answered and nothing changes. -/
  idle : w.pending = none →
    ask call .exceptionOccurred [] w = .ok (.plain (.handle .null)) w
  /-- Where there is room, a reference to the pending one is made and nothing else changes. -/
  vacant : ∀ o a, w.pending = some o → w.attachment = some a → ¬ w.LocalsFull → ∃ h t,
    ask call .exceptionOccurred [] w = .ok (.plain (.handle h)) (Native.withLocals w a t) ∧
      h ≠ .null ∧ (Native.withLocals w a t).pending = some o ∧
      (a.locals.WellFormed → (Native.withLocals w a t).resolve h = some o)
  /-- Where there is none, null is answered, and what says so is pending in its place. -/
  full : ∀ o a, w.pending = some o → w.attachment = some a → w.LocalsFull →
    let w' := w.raised ⟨.outOfMemory, (AllocError.localLimit a.locals.limit).message⟩
    ask call .exceptionOccurred [] w = .ok (.plain (.handle .null)) w' ∧
      w'.pending = some ⟨w.heap.size⟩
  /-- So null is answered just if none was pending or no reference could be made. -/
  null_iff : ∀ h w', ask call .exceptionOccurred [] w = .ok (.plain (.handle h)) w' →
    (h = .null ↔ w.pending = none ∨ w.LocalsFull)
  /-- And the same one is pending, or none, but for one that no reference could be made to. -/
  same_iff : (∀ o, w.pending = some o → o.index < w.heap.size) →
    ∀ answer w', ask call .exceptionOccurred [] w = .ok answer w' →
      (w'.pending = w.pending ↔ ¬ (w.pending.isSome = true ∧ w.LocalsFull))

/-- The three ways in which a pending throwable may be asked for. -/
theorem occurred_cases (call : Invoker H) (ha : w.attachment = some a) :
    (w.pending = none ∧ ask call .exceptionOccurred [] w = .ok (.plain (.handle .null)) w) ∨
    (∃ o i free, w.pending = some o ∧ a.locals.vacancy? = some (i, free) ∧
      ask call .exceptionOccurred [] w =
        .ok (.plain (.handle ((a.locals.fill i free o).handleAt i)))
          (Native.withLocals w a (a.locals.fill i free o))) ∨
    ∃ o, w.pending = some o ∧ a.locals.vacancy? = none ∧
      ask call .exceptionOccurred [] w = .ok (.plain (.handle .null))
        (w.raised ⟨.outOfMemory, (AllocError.localLimit a.locals.limit).message⟩) := by
  cases ho : w.pending with
  | none => exact .inl ⟨rfl, occurred_of_none ha ho⟩
  | some o =>
    refine .inr ?_
    cases hvacancy : a.locals.vacancy? with
    | none => exact .inr ⟨o, rfl, rfl, occurred_of_full ha ho hvacancy⟩
    | some v => exact .inl ⟨o, v.1, v.2, rfl, rfl, occurred_of_vacant ha ho hvacancy⟩

theorem localsFull_iff (ha : w.attachment = some a) :
    w.LocalsFull ↔ a.locals.vacancy? = none := by
  refine ⟨fun ⟨a', ha', hfull⟩ => ?_, fun hfull => ⟨a, ha, hfull⟩⟩
  cases ha.symm.trans ha'
  exact hfull

/-- On an attached thread, whatever is pending and however many references there are, queries leave
what is pending as it is, but for a throwable that no reference could be made to. -/
theorem queries_keep_pending_unless_full (call : Invoker H) (hw : w.IsAttached) :
    Queries call w := by
  obtain ⟨a, ha⟩ := Option.isSome_iff_exists.1 hw
  have hfull := localsFull_iff ha
  constructor
  case check => exact ask_exceptionCheck call hw
  case idle => exact occurred_of_none ha
  case vacant =>
    intro o a' ho ha' hroom
    cases ha.symm.trans ha'
    obtain ⟨⟨i, free⟩, hvacancy⟩ := Option.ne_none_iff_exists'.1 (mt hfull.2 hroom)
    refine ⟨_, _, occurred_of_vacant ha ho hvacancy, Locals.handleAt_ne_null _ i,
      (pending_withLocals ha _).trans ho, fun wf => ?_⟩
    obtain ⟨g, t, hlocal, -, hg⟩ := newLocal_fills ha wf (by rw [hvacancy]; rfl) o
    cases (newLocal_vacant ha hvacancy o).symm.trans hlocal
    exact hg
  case full =>
    intro o a' ho ha' hnone
    cases ha.symm.trans ha'
    exact ⟨occurred_of_full ha ho (hfull.1 hnone), World.pending_raised hw _⟩
  case null_iff =>
    intro h w' hask
    rw [hfull]
    obtain ⟨hnone, hrun⟩ | ⟨o, i, free, ho, hvacancy, hrun⟩ | ⟨o, ho, hvacancy, hrun⟩ :=
      occurred_cases call ha <;> cases hrun.symm.trans hask
    · exact iff_of_true rfl (.inl hnone)
    · refine iff_of_false (Locals.handleAt_ne_null _ i) ?_
      rw [ho, hvacancy]
      nofun
    · exact iff_of_true rfl (.inr hvacancy)
  case same_iff =>
    intro hheap answer w' hask
    rw [hfull]
    obtain ⟨hnone, hrun⟩ | ⟨o, i, free, ho, hvacancy, hrun⟩ | ⟨o, ho, hvacancy, hrun⟩ :=
      occurred_cases call ha <;> cases hrun.symm.trans hask
    · refine iff_of_true rfl ?_
      rw [hnone]
      nofun
    · refine iff_of_true (pending_withLocals ha _) ?_
      rw [hvacancy]
      nofun
    · refine iff_of_false ?_ (not_not_intro ⟨by rw [ho]; rfl, hvacancy⟩)
      rw [World.pending_raised hw, ho]
      intro hsame
      cases hsame
      exact absurd (hheap _ ho) (Nat.lt_irrefl _)

/-! ## A full table -/

/-- Room for sixteen local references. -/
def narrowConfig : Config := { Config.default with maxLocals := 16 }

/-- A thread that was attached when a run started. -/
def roomyThread : World (Native.Recorded Unit) :=
  (((World.start World.defaultCallDepth .growing ⟨(), []⟩).install narrowConfig).attach
    (.empty narrowConfig)).2

/-- Sixteen references to the object that was made first. -/
def crowdedLocals : Locals ObjectRef :=
  (Locals.empty 16).after (List.replicate 16 (.create (some ⟨0⟩)))

/-- The thread once it raised, and made as many references to what it raised as there can be. -/
def crowdedThread : World (Native.Recorded Unit) :=
  Native.withLocals (roomyThread.raised ⟨.nullPointer, "boom"⟩) ⟨0, .empty 16, ⟨some ⟨0⟩⟩⟩
    crowdedLocals

theorem attachment_raised_roomyThread : (roomyThread.raised ⟨.nullPointer, "boom"⟩).attachment =
    some ⟨0, .empty 16, ⟨some ⟨0⟩⟩⟩ := by
  let w : World (Native.Recorded Unit) :=
    (World.start World.defaultCallDepth .growing ⟨(), []⟩).install narrowConfig
  obtain ⟨hnone, hfirst, hheap⟩ :
      w.attachment.isNone = true ∧ w.attachments = 0 ∧ roomyThread.heap.size = 0 := by
    decide +kernel
  have hattachment : roomyThread.attachment = some ⟨w.attachments, .empty 16, .empty⟩ :=
    World.attachment_attach (Option.isNone_iff_eq_none.1 hnone) (.empty narrowConfig)
  rw [World.attachment_raised hattachment, hheap, hfirst]

theorem reachable_crowdedThread : Native.Reachable Native.idle true crowdedThread := by
  have hroomy : Native.Reachable Native.idle true roomyThread := by
    rw [roomyThread]
    exact .attached_start Native.proper_idle _ _ _ _
  have hraised : Native.Reachable Native.idle true (roomyThread.raised ⟨.nullPointer, "boom"⟩) :=
    .raise hroomy rfl
  exact hraised.calm Native.proper_idle
    (.of_attachment attachment_raised_roomyThread rfl (.inl rfl))

theorem crowdedThread_queries : crowdedThread.IsAttached ∧
    Queries (fun _ _ _ => Action.halt .outOfFuel) crowdedThread :=
  ⟨rfl, queries_keep_pending_unless_full _ rfl⟩

/-- The thread asks for what is pending. -/
def crowdedQuery : Outcome (Native.Recorded Unit) Empty Answer :=
  ask (Guest.invoke (Native.Program.code Native.idle) 1) .exceptionOccurred [] crowdedThread

/-- What is pending after that, and its class. -/
def crowdedPending : Option (ObjectRef × String) :=
  match crowdedQuery with
  | .ok _ w => w.pending.map fun o => (o, w.className o)
  | _ => none

/-- Something else is pending afterwards. -/
theorem query_loses_throwable :
    Native.Reachable Native.idle true crowdedThread ∧
    crowdedThread.pending = some ⟨0⟩ ∧
    crowdedThread.className ⟨0⟩ = "java/lang/NullPointerException" ∧
    crowdedPending = some (⟨2⟩, "java/lang/OutOfMemoryError") ∧
    ¬ ∀ (w w' : World (Native.Recorded Unit)) fuel answer,
      Native.Reachable Native.idle true w → w.IsAttached →
      ask (Guest.invoke (Native.Program.code Native.idle) fuel) .exceptionOccurred [] w =
        .ok answer w' → w'.pending = w.pending := by
  obtain ⟨hclass, hpending⟩ : crowdedThread.className ⟨0⟩ = "java/lang/NullPointerException" ∧
      crowdedPending = some (⟨2⟩, "java/lang/OutOfMemoryError") := by
    decide +kernel
  refine ⟨reachable_crowdedThread, rfl, hclass, hpending, fun hall => ?_⟩
  unfold crowdedPending at hpending
  split at hpending
  next answer w' hquery =>
    rw [hall crowdedThread w' 1 answer reachable_crowdedThread rfl hquery] at hpending
    cases hpending
  next => cases hpending

end Interface

end GuestBoundary
