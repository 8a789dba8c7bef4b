import GuestBoundary.Proofs.Exceptions.Reachable
import GuestBoundary.Proofs.Exceptions.Waiting

/-!
# The discipline of raising

A call of the interface breaks a rule, raises, completes, or leaves its thread waiting.  In every
reachable state it comes to exactly one of these endings, which says what is answered and what is
pending then, or what the call waits for.
-/

namespace GuestBoundary

variable {H : Type}

open World Interface

namespace Interface

/-! ## Endings -/

/-- Whether the function answers a status. -/
def Function.answersStatus : Function → Bool
  | throw | throwNew | pushLocalFrame | ensureLocalCapacity | registerNatives | unregisterNatives
  | monitorEnter | monitorExit => true
  | _ => false

/-- What a function answers that raises is an error status, or else null or zero. -/
theorem word_failure (f : Function) : f.failure.word =
    if f.answersStatus then (Returned.status .err).word else 0 := by
  cases f with
  | call _ kind | getField _ kind =>
    cases kind with
    | primitive p => cases p <;> rfl
    | _ => rfl
  | _ => rfl

/-- How a call of the interface can end. -/
inductive Ending where
  /-- Native code broke a rule, and the run is over. -/
  | violated
  | raised
  | completed
  /-- The thread waits for what another one has. -/
  | blocked
  deriving DecidableEq

/-- What it means for a call to come to an ending. -/
inductive Ends (call : Invoker H) (env : Option Env) (f : Function) (args : List Argument)
    (w : World H) : Ending → Prop
  | violated {v : ContractViolation} {w' : World H}
    (h : callFunction call env f args w = (.halt (.violation v) w' : Outcome H Empty Answer)) :
    Ends call env f args w .violated
  /-- The function answers an error status, null or zero, and a throwable is pending. -/
  | raised {w' : World H} {o : ObjectRef} (raises : (perform call f args w).Raises)
    (h : callFunction call env f args w = (.ok (.plain f.failure) w' : Outcome H Empty Answer))
    (word : f.failure.word = if f.answersStatus then (Returned.status .err).word else 0)
    (thread : w'.thread.id = w.thread.id) (pending : w'.pending = some o) :
    Ends call env f args w .raised
  /-- The function does not raise, and what is pending is what it leaves. -/
  | completed {answer : Answer} {w' : World H} (answers : perform call f args w = .ok answer w')
    (h : callFunction call env f args w = (.ok answer w' : Outcome H Empty Answer))
    (thread : w'.thread.id = w.thread.id) (left : f.Leaves w answer w') :
    Ends call env f args w .completed
  /-- The call waits for what the function awaits, and another thread has it. -/
  | blocked {x : Awaited} {w' : World H}
    (h : callFunction call env f args w = (.halt (.deadlock x) w' : Outcome H Empty Answer))
    (held : w'.Withholds x) (awaits : Awaits call w f args x) : Ends call env f args w .blocked

section Endings

variable {call : Invoker H} {env : Option Env} {f : Function} {args : List Argument} {w : World H}

/-- The ending shows in the outcomes of the function and of the call. -/
def endingOf (body : Outcome H EntryError Answer) : Outcome H Empty Answer → Ending
  | .ok _ _ =>
    match body with
    | .ok _ _ => .completed
    | _ => .raised
  | .halt (.deadlock _) _ => .blocked
  | _ => .violated

theorem Ends.eq_endingOf {e : Ending} (h : Ends call env f args w e) :
    e = endingOf (perform call f args w) (callFunction call env f args w) := by
  cases h with
  | violated h => rw [h]; rfl
  | raised raises h _ _ _ =>
    rw [h]
    cases hbody : perform call f args w with
    | error e w' => rfl
    | panic m w' => rfl
    | ok a w' => exact absurd raises (by rw [hbody]; exact id)
    | halt r w' => exact absurd raises (by rw [hbody]; exact id)
  | completed answers h _ _ => rw [h, answers]; rfl
  | blocked h _ _ => rw [h]; rfl

/-- A call that waits comes to no other ending. -/
theorem Ends.eq_blocked {e : Ending} {x : Awaited} {w' : World H} (he : Ends call env f args w e)
    (h : callFunction call env f args w = (.halt (.deadlock x) w' : Outcome H Empty Answer)) :
    e = .blocked := by
  rw [he.eq_endingOf, h]
  rfl

/-- A call that waits does so in its function. -/
theorem deadlock_of_callFunction {x : Awaited} {w' : World H}
    (h : callFunction call env f args w = (.halt (.deadlock x) w' : Outcome H Empty Answer)) :
    perform call f args w = .halt (.deadlock x) w' := by
  obtain ⟨_, v, hv, hcontain⟩ := deadlock_of_next (neverAwaits_checkEnv env) h
  obtain rfl : v = w := by
    have hchecked := returns_checkEnv (ε := Empty) env w
    rw [hv] at hchecked
    exact hchecked
  unfold contain at hcontain
  cases hbody : perform call f args v with
  | ok a v' =>
    rw [hbody] at hcontain
    cases hcontain
  | error e v' =>
    rw [hbody] at hcontain
    exact absurd hcontain (NeverAwaits.bind (neverAwaits_throwable e)
      (fun _ => (NeverAwaits.update _).bind fun _ => .pure _) v' w')
  | panic m v' =>
    rw [hbody] at hcontain
    cases hcontain
  | halt r v' =>
    rw [hbody] at hcontain
    cases hcontain
    rfl

theorem ends_of_guarded (hs : Shaped f args)
    (h : Guarded false (.plain f.failure) (f.Leaves w) (perform call f args w) w
      (callFunction call env f args w : Outcome H Empty Answer)) :
    ∃! e, Ends call env f args w e := by
  have hunique : ∀ {e}, Ends call env f args w e → ∃! e, Ends call env f args w e := fun h =>
    ⟨_, h, fun _ h' => h'.eq_endingOf.trans h.eq_endingOf.symm⟩
  generalize ho : (callFunction call env f args w : Outcome H Empty Answer) = o at h
  cases h with
  | @stopped r w' h =>
    cases r with
    | violation v => exact hunique (.violated ho)
    | deadlock x =>
      exact hunique (.blocked ho h (awaits_of_deadlock hs (deadlock_of_callFunction ho)))
    | outOfFuel => exact h.elim
    | misuse => cases h
  | raised raises continues _ pending =>
    exact hunique (.raised raises ho (word_failure f) continues.id pending)
  | completed answers continues _ left =>
    exact hunique (.completed answers ho continues.id left)

end Endings

end Interface

namespace Native

/-- In every reachable state, every call of the interface comes to exactly one ending, with as much
fuel as the bound on nested calls asks for; it is left waiting only for what its function awaits.
Nothing is pending that is not throwable, on any thread, if guest code threw only throwables. -/
theorem calls_keep_discipline {natives : NativeCall → Program H}
    (hnatives : ∀ c, (natives c).Proper c.env) {clean : Bool} {w : World (Recorded H)}
    (hw : Reachable natives clean w) :
    (∀ {fuel : Nat} {env : Option Env} {f : Function} {args : List Argument},
      w.maxCallDepth < w.thread.depth + fuel → Admits w env → Shaped f args →
      (∀ value, storedArgument? f args = some value → value.IsValue) →
        ∃! e, Ends (Guest.invoke (Program.code natives) fuel) env f args w e) ∧
    (clean = true → w.PendingThrowable) := by
  have hsound := hw.sound hnatives
  refine ⟨fun {fuel env f args} room henv hs hvalue => ?_, hsound.clean⟩
  have hcall := conducts_calls hnatives false fuel
  rw [Guest.invokeWithin_false] at hcall
  exact ends_of_guarded hs (guarded_callFunction ⟨hsound.loose, room⟩ henv hcall hs hvalue)

/-! ## A call that raises -/

/-- Native functions that do nothing. -/
def idle (_ : NativeCall) : Program Unit := .done 0

theorem proper_idle (c : NativeCall) : (idle c).Proper c.env := trivial

/-- A thread that was attached when a run started. -/
def firstThread : World (Recorded Unit) :=
  (((World.start World.defaultCallDepth .growing ⟨(), []⟩).install .default).attach (.empty .default)).2

theorem attachment_firstThread : firstThread.attachment.isSome = true := by
  rw [firstThread]
  exact isSome_of_ownEnv (ownEnv_attach _ _)

theorem reachable_firstThread (clean : Bool) : Reachable idle clean firstThread := by
  rw [firstThread]
  exact .attached_start proper_idle _ _ _ _

/-- The thread threw a null reference. -/
def nullThrower : World (Recorded Unit) := firstThread.raised ⟨.nullPointer, "throwable is null"⟩

theorem pending_nullThrower : nullThrower.pending = some ⟨firstThread.heap.size⟩ :=
  pending_raised attachment_firstThread _

theorem reachable_nullThrower : Reachable idle true nullThrower := by
  have hshaped : Shaped .throw [.handle .null] := .throw .null
  have hthrow : callFunction (Guest.invoke (Program.code idle) (firstThread.maxCallDepth + 1))
      (ownEnv firstThread) .throw [.handle .null] firstThread =
        (.ok (.plain (.status .err)) nullThrower : Outcome _ Empty Answer) :=
    callFunction_fails attachment_firstThread rfl rfl
  refine .call (reachable_firstThread true) (by omega) (fun e he _ => he) hshaped nofun (fun _ => ?_)
    hthrow
  show callFunction _ _ _ _ _ = callFunction _ _ _ _ _
  rw [callFunction, callFunction, perform_eq_of_not_runsGuest hshaped rfl]

/-- What is pending then is throwable, and it can be cleared. -/
theorem null_throw_keeps_discipline :
    nullThrower.pending.isSome = true ∧ nullThrower.PendingThrowable ∧
      ∃! e, Ends (Guest.invoke (Program.code idle) (nullThrower.maxCallDepth + 1))
        (ownEnv nullThrower) .exceptionClear [] nullThrower e := by
  obtain ⟨hends, hthrowable⟩ := calls_keep_discipline proper_idle reachable_nullThrower
  have hattached : nullThrower.attachment.isSome = true := by
    cases ha : nullThrower.attachment with
    | some a => rfl
    | none =>
      have hpending := pending_nullThrower
      rw [World.pending, ha] at hpending
      cases hpending
  exact ⟨by rw [pending_nullThrower]; rfl, hthrowable rfl,
    hends (by omega) (fun e he _ => he) .exceptionClear fun _ h => by cases h⟩

/-! ## A call that waits -/

/-- This much fuel is enough in every state. -/
theorem hasRoom (w : World H) : w.maxCallDepth < w.thread.depth + (w.maxCallDepth + 1) := by omega

/-- Where a call of the running thread gets to, if it answers. -/
def turned (f : Function) (args : List Argument) (w : World (Recorded Unit)) :
    World (Recorded Unit) :=
  match ask (Guest.invoke (Program.code idle) (w.maxCallDepth + 1)) f args w with
  | .ok _ w' => w'
  | _ => w

theorem reachable_turned {f : Function} {args : List Argument} {w : World (Recorded Unit)}
    (hw : Reachable idle false w) (hs : Shaped f args) (hstored : storedArgument? f args = none) :
    Reachable idle false (turned f args w) := by
  unfold turned
  split
  next h =>
    refine .call hw (hasRoom w) (fun e he _ => he) hs (fun value hvalue => ?_) nofun h
    cases hstored.symm.trans hvalue
  next => exact hw

/-- The name of a class that there is. -/
def rootName : Option (List UInt8) := some "java/lang/Object".toUTF8.toList

/-- The first reference of a table of local references. -/
def firstLocal : Handle := .encode 0 0 .local

/-- The first thread looks a class up and enters the monitor of the class object. -/
def monitorOwner : World (Recorded Unit) :=
  turned .monitorEnter [.handle firstLocal] (turned .findClass [.text rootName] firstThread)

/-- A second thread runs. -/
def secondThread : World (Recorded Unit) :=
  { monitorOwner with
    thread := ⟨⟨1⟩, 0, none⟩
    waiting := monitorOwner.thread :: monitorOwner.waiting }

/-- The second thread gets attached. -/
def secondAttached : World (Recorded Unit) :=
  match secondThread.bridge with
  | some b => (secondThread.attach b).2
  | none => secondThread

/-- The second thread looks the same class up. -/
def contender : World (Recorded Unit) := turned .findClass [.text rootName] secondAttached

theorem reachable_contender : Reachable idle false contender := by
  have howner : Reachable idle false monitorOwner :=
    reachable_turned (reachable_turned (reachable_firstThread false) (.findClass rootName) rfl)
      (.monitorEnter firstLocal) rfl
  have hsecond : Reachable idle false secondThread := howner.spawn proper_idle ⟨1⟩
  have hattached : Reachable idle false secondAttached := by
    unfold secondAttached
    split
    next b hb => exact hsecond.attach proper_idle hb
    next => exact hsecond
  exact reachable_turned hattached (.findClass rootName) rfl

/-- The second thread enters the monitor. -/
def contention : Outcome (Recorded Unit) Empty Answer :=
  ask (Guest.invoke (Program.code idle) (contender.maxCallDepth + 1)) .monitorEnter
    [.handle firstLocal] contender

/-- The monitor that the second thread waits for, and the owner of that monitor. -/
def contended : Option (ObjectRef × Option ThreadId) :=
  match contention with
  | .halt (.deadlock (.monitor o)) w => some (o, (w.object o).monitor.owner?)
  | _ => none

/-- A call waits, which breaks no rule, does not raise and does not complete. -/
theorem second_entry_waits :
    Reachable idle false contender ∧ contended = some (⟨0⟩, some ⟨0⟩) ∧
    ¬ ∀ (w : World (Recorded Unit)) fuel f args, Reachable idle false w →
      w.maxCallDepth < w.thread.depth + fuel → Shaped f args → storedArgument? f args = none →
        ∃ e, Ends (Guest.invoke (Program.code idle) fuel) (ownEnv w) f args w e ∧ e ≠ .blocked := by
  have hcontended : contended = some (⟨0⟩, some ⟨0⟩) := by decide +kernel
  refine ⟨reachable_contender, hcontended, fun hall => ?_⟩
  obtain ⟨e, hends, hblocked⟩ := hall contender _ .monitorEnter [.handle firstLocal]
    reachable_contender (hasRoom contender) (.monitorEnter firstLocal) rfl
  unfold contended at hcontended
  split at hcontended
  next o w' hwaits => exact hblocked (hends.eq_blocked hwaits)
  next => cases hcontended

end Native

end GuestBoundary
