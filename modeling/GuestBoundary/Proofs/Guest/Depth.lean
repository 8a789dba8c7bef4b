import GuestBoundary.Proofs.Effects.Attachment
import GuestBoundary.Proofs.Guest.Runs
import Mathlib.Logic.Function.Basic

/-!
# Calls in progress

Every call is noted when it begins, when it ends and when it is refused (`invokeLogged`).  What a
thread counts while it makes calls is how many of the noted ones are in progress on it
(`World.Logs`), whatever native code does in between, so there are never more than are allowed, also
on the way and where the run is over.  A call that would be one too many throws before it has done
anything (`World.Overflows`).
-/

namespace GuestBoundary

/-! ## What becomes of calls -/

/-- What becomes of a call.  A thread is told from the others that are there by how many of them
wait for it. -/
inductive CallEvent where
  | began (thread : Nat)
  | ended (thread : Nat)
  | refused (thread : Nat)
  deriving DecidableEq

namespace CallEvent

variable {limit : Nat} {n : Nat → Nat} {e : CallEvent} {es es' : List CallEvent}

/-- How many calls are in progress on each thread after an event. -/
def after (n : Nat → Nat) : CallEvent → Nat → Nat
  | began t => Function.update n t (n t + 1)
  | ended t => Function.update n t (n t - 1)
  | refused _ => n

/-- A call begins where there is room for one more and is refused where there is none; what ends has
begun. -/
def Fits (limit : Nat) (n : Nat → Nat) : CallEvent → Prop
  | began t => n t < limit
  | ended t => 0 < n t
  | refused t => limit ≤ n t

/-- Every event fits where it happens. -/
def Lawful (limit : Nat) : (Nat → Nat) → List CallEvent → Prop
  | _, [] => True
  | n, e :: es => e.Fits limit n ∧ Lawful limit (e.after n) es

theorem lawful_append :
    Lawful limit n (es ++ es') ↔ Lawful limit n es ∧ Lawful limit (es.foldl after n) es' := by
  induction es generalizing n with
  | nil => exact ⟨fun h => ⟨trivial, h⟩, And.right⟩
  | cons e es ih => rw [List.cons_append, Lawful, Lawful, ih, List.foldl_cons, and_assoc]

theorem Fits.after_le (h : e.Fits limit n) (hn : ∀ t, n t ≤ limit) (t : Nat) :
    e.after n t ≤ limit := by
  cases e with
  | began u =>
    rw [after, Function.update_apply]
    split
    · exact h
    · exact hn t
  | ended u =>
    rw [after, Function.update_apply]
    split
    · exact Nat.le_trans (Nat.sub_le _ _) (hn u)
    · exact hn t
  | refused u => exact hn t

theorem Lawful.le (h : Lawful limit n es) (hn : ∀ t, n t ≤ limit) (t : Nat) :
    es.foldl after n t ≤ limit := by
  induction es generalizing n with
  | nil => exact hn t
  | cons e es ih => exact ih h.2 (h.1.after_le hn)

/-- How many calls are in progress on a thread after what has become of them so far. -/
def inProgress (es : List CallEvent) : Nat → Nat := es.foldl after fun _ => 0

/-- There are never more calls in progress on a thread than are allowed, and a call is refused
just where there are as many. -/
structure Bounded (limit : Nat) (es : List CallEvent) : Prop where
  bound : ∀ before later t, es = before ++ later → inProgress before t ≤ limit
  began : ∀ before later t, es = before ++ .began t :: later → inProgress before t < limit
  ended : ∀ before later t, es = before ++ .ended t :: later → 0 < inProgress before t
  refused : ∀ before later t, es = before ++ .refused t :: later → inProgress before t = limit

theorem Lawful.bounded (h : Lawful limit (fun _ => 0) es) : Bounded limit es := by
  have hbound : ∀ before later t, es = before ++ later → inProgress before t ≤ limit := by
    rintro before later t rfl
    exact (lawful_append.1 h).1.le (fun _ => Nat.zero_le _) t
  have hfits : ∀ before later e, es = before ++ e :: later → e.Fits limit (inProgress before) := by
    rintro before later e rfl
    exact (lawful_append.1 h).2.1
  constructor
  case bound => exact hbound
  case began => exact fun before later t heq => hfits before later _ heq
  case ended => exact fun before later t heq => hfits before later _ heq
  case refused =>
    exact fun before later t heq =>
      Nat.le_antisymm (hbound before _ t heq) (hfits before later _ heq)

end CallEvent

/-! ## Noting calls -/

/-- What the embedding program has, with what has become of calls. -/
structure Logged (H : Type) where
  own : H
  /-- Oldest first. -/
  calls : List CallEvent

variable {H : Type}

/-- Notes what becomes of a call on the running thread. -/
def World.note (e : Nat → CallEvent) (w : World (Logged H)) : World (Logged H) :=
  { w with host := { w.host with calls := w.host.calls ++ [e w.waiting.length] } }

namespace Guest

/-- Calls methods and notes that a call begins and that it ends, or that there are too many. -/
def logged (call : Invoker (Logged H)) : Invoker (Logged H) := fun m receiver args w =>
  if w.thread.depth < w.maxCallDepth then
    (call m receiver args).andFinally (World.note .ended) (w.note .began)
  else call m receiver args (w.note .refused)

/-- Calls methods, and notes what becomes of every call; calls may be nested `fuel` deep. -/
def invokeLogged (native : NativeCode (Logged H)) : Nat → Invoker (Logged H)
  | 0 => fun _ _ _ => Action.halt .outOfFuel
  | fuel + 1 => logged (invokeWith native (invokeLogged native fuel))

end Guest

namespace World

/-! ## What threads count -/

/-- How many calls each thread counts; the running one is the last, and all others wait for it. -/
def depths {H : Type} (w : World H) : Nat → Nat :=
  Function.update (fun t => (w.waiting.reverse[t]?.map Thread.depth).getD 0) w.waiting.length
    w.thread.depth

variable {w w' w'' v : World (Logged H)} {es es' : List CallEvent}

theorem depths_running (w : World H) : w.depths w.waiting.length = w.thread.depth :=
  Function.update_self ..

theorem depths_of_waiting {w w' : World H} (h : w'.waiting = w.waiting) :
    w'.depths = Function.update w.depths w.waiting.length w'.thread.depth := by
  rw [depths, depths, h, Function.update_idem]

/-- What has become of calls between two states, and what the running thread counts on the way. -/
structure Logs (w : World (Logged H)) (es : List CallEvent) (w' : World (Logged H)) : Prop where
  id : w'.thread.id = w.thread.id
  waiting : w'.waiting = w.waiting
  limit : w'.maxCallDepth = w.maxCallDepth
  calls : w'.host.calls = w.host.calls ++ es
  lawful : CallEvent.Lawful w.maxCallDepth w.depths es
  depths : w'.depths = es.foldl CallEvent.after w.depths

theorem Logs.trans (h : w.Logs es w') (h' : w'.Logs es' w'') : w.Logs (es ++ es') w'' where
  id := h'.id.trans h.id
  waiting := h'.waiting.trans h.waiting
  limit := h'.limit.trans h.limit
  calls := by rw [h'.calls, h.calls, List.append_assoc]
  lawful := CallEvent.lawful_append.2 ⟨h.lawful, h.depths ▸ h.limit ▸ h'.lawful⟩
  depths := by rw [h'.depths, h.depths, List.foldl_append]

/-- Nothing has become of calls. -/
theorem Logs.of_eq (hid : w'.thread.id = w.thread.id)
    (hdepth : w'.thread.depth = w.thread.depth) (hwaiting : w'.waiting = w.waiting)
    (hlimit : w'.maxCallDepth = w.maxCallDepth) (hhost : w'.host = w.host) : w.Logs [] w' where
  id := hid
  waiting := hwaiting
  limit := hlimit
  calls := by rw [hhost, List.append_nil]
  lawful := trivial
  depths := by
    rw [depths_of_waiting hwaiting, hdepth, ← depths_running, Function.update_eq_self]
    rfl

/-- One event that fits, and that the running thread counts. -/
theorem Logs.one {e : CallEvent} {n : Nat} (hfits : e.Fits w.maxCallDepth w.depths)
    (hafter : e.after w.depths = Function.update w.depths w.waiting.length n)
    (hthread : v.thread = { w.thread with depth := n }) (hwaiting : v.waiting = w.waiting)
    (hlimit : v.maxCallDepth = w.maxCallDepth) (hcalls : v.host.calls = w.host.calls ++ [e]) :
    w.Logs [e] v where
  id := by rw [hthread]
  waiting := hwaiting
  limit := hlimit
  calls := hcalls
  lawful := ⟨hfits, trivial⟩
  depths := by
    rw [depths_of_waiting hwaiting, hthread, ← hafter]
    rfl

theorem Logs.began (hroom : w.thread.depth < w.maxCallDepth)
    (hthread : v.thread = { w.thread with depth := w.thread.depth + 1 })
    (hwaiting : v.waiting = w.waiting) (hlimit : v.maxCallDepth = w.maxCallDepth)
    (hcalls : v.host.calls = w.host.calls ++ [.began w.waiting.length]) :
    w.Logs [.began w.waiting.length] v := by
  refine .one ?_ ?_ hthread hwaiting hlimit hcalls
  · rwa [CallEvent.Fits, depths_running]
  · rw [CallEvent.after, depths_running]

theorem Logs.ended (hdepth : 0 < w.thread.depth)
    (hthread : v.thread = { w.thread with depth := w.thread.depth - 1 })
    (hwaiting : v.waiting = w.waiting) (hlimit : v.maxCallDepth = w.maxCallDepth)
    (hcalls : v.host.calls = w.host.calls ++ [.ended w.waiting.length]) :
    w.Logs [.ended w.waiting.length] v := by
  refine .one ?_ ?_ hthread hwaiting hlimit hcalls
  · rwa [CallEvent.Fits, depths_running]
  · rw [CallEvent.after, depths_running]

theorem logs_refused (hfull : w.maxCallDepth ≤ w.thread.depth) :
    w.Logs [.refused w.waiting.length] (w.note .refused) where
  id := rfl
  waiting := rfl
  limit := rfl
  calls := rfl
  lawful := ⟨by rwa [CallEvent.Fits, depths_running], trivial⟩
  depths := rfl

/-- The calls that began in between have ended, and the running thread counts as many as before. -/
def Tallies (w w' : World (Logged H)) : Prop :=
  w'.thread.depth = w.thread.depth ∧ ∃ es, w.Logs es w'

/-- Every call so far was counted where it began, ended or was refused. -/
def Notes (w w' : World (Logged H)) : Prop :=
  ∃ es, w'.host.calls = w.host.calls ++ es ∧ CallEvent.Lawful w.maxCallDepth w.depths es

theorem Logs.notes (h : w.Logs es w') (h' : w'.Notes w'') : w.Notes w'' := by
  obtain ⟨es', hcalls, hlawful⟩ := h'
  refine ⟨es ++ es', by rw [hcalls, h.calls, List.append_assoc], ?_⟩
  exact CallEvent.lawful_append.2 ⟨h.lawful, h.depths ▸ h.limit ▸ hlawful⟩

theorem tallies_composes : Composes (Tallies (H := H)) Notes where
  refl w := ⟨rfl, [], .of_eq rfl rfl rfl rfl rfl⟩
  trans := by
    rintro w w' w'' ⟨hdepth, es, h⟩ ⟨hdepth', es', h'⟩
    exact ⟨hdepth'.trans hdepth, es ++ es', h.trans h'⟩
  ends := by
    rintro w w' ⟨-, es, h⟩
    exact ⟨es, h.calls, h.lawful⟩
  after := by
    rintro w w' w'' ⟨-, es, h⟩ h'
    exact h.notes h'

theorem SameSide.logs (h : SameSide w w') : w.Logs [] w' :=
  .of_eq (by rw [h.thread]) (by rw [h.thread]) h.waiting h.limit h.host

theorem SameSide.tallies (h : SameSide w w') : Tallies w w' := ⟨by rw [h.thread], [], h.logs⟩

theorem tallies_progressNeutral : ProgressNeutral (Tallies (H := H)) where
  toComposable := tallies_composes.toComposable
  sameSide := SameSide.tallies
  setInit _ _ _ := ⟨rfl, [], .of_eq rfl rfl rfl rfl rfl⟩
  noteStart _ _ := ⟨rfl, [], .of_eq rfl rfl rfl rfl rfl⟩

theorem tallies_neutral : AttachmentNeutral (Tallies (H := H)) where
  toGuestNeutral := tallies_progressNeutral.guestNeutral
  withBridge _ _ := ⟨rfl, [], .of_eq rfl rfl rfl rfl rfl⟩
  setAttachment _ := ⟨rfl, [], .of_eq rfl rfl rfl rfl rfl⟩

theorem tallies_finishNeutral : FinishNeutral (Tallies (H := H)) Notes :=
  tallies_progressNeutral.finishNeutral tallies_neutral tallies_composes

/-- The fault of a call that would be one too many. -/
def overflow {H : Type} (w : World H) : GuestFault :=
  ⟨.stackOverflow, s!"call depth exceeded {w.maxCallDepth}"⟩

end World

/-! ## Calls -/

namespace Guest

open World

variable {native : NativeCode (Logged H)} {call : Invoker (Logged H)}

/-- What is done in a call is done between the notes of its beginning and its end. -/
theorem finishes_inCall {ε α : Type} {a : Action (Logged H) ε α} (ha : Finishes Tallies Notes a)
    (objects : List ObjectRef) {w : World (Logged H)} (hroom : w.thread.depth < w.maxCallDepth) :
    ((Action.holding objects (inCall a)).andFinally (note .ended) (w.note .began)).Finishes
      (Tallies w) (Notes w) := by
  let inside : World (Logged H) := { w.note .began with
    held := objects ++ w.held
    thread := { w.thread with depth := w.thread.depth + 1 } }
  have hbegan : w.Logs [.began w.waiting.length] inside := .began hroom rfl rfl rfl rfl
  refine Finishes.andFinally_at (Finishes.andFinally_at (Finishes.andFinally_at ?_))
  refine (ha inside).mono ?_ fun _ => hbegan.notes
  rintro v ⟨hdepth, es, hlogs⟩
  have hpos : 0 < v.thread.depth := hdepth ▸ Nat.succ_pos _
  have hthrough : w.Logs _ _ := (hbegan.trans hlogs).trans
    (.ended (v := note .ended { v.setDepth (v.thread.depth - 1) with held := w.held })
      hpos rfl rfl rfl rfl)
  exact ⟨congrArg (· - 1) hdepth, _, hthrough⟩

/-- A call for which there is room is one more call in progress. -/
theorem exists_inCall (hnative : NativeFinishes Tallies Notes native)
    (hcall : CallsFinish Tallies Notes call) {w : World (Logged H)}
    (hroom : w.thread.depth < w.maxCallDepth) (m : MethodRef) (receiver : Option ObjectRef)
    (args : List Value) : ∃ (objects : List ObjectRef) (a : Guest (Logged H) Value),
      Finishes Tallies Notes a ∧
        invokeWith native call m receiver args w = Action.holding objects (inCall a) w := by
  have n := tallies_finishNeutral (H := H)
  have k := n.entry.congruence
  have hbody := n.nativeInvoke hcall hnative
  have hworld : (Action.world : Guest (Logged H) _) w = .ok w w := rfl
  refine ⟨_, _, ?_, (Action.bind_ok hworld).trans (by rw [if_neg (Nat.not_le.2 hroom)])⟩
  split
  · refine Finishes.bind n.toComposes (k.checkReceiver hcall.related m receiver) fun _ => ?_
    exact k.runBody receiver args hcall.related hbody.related m
  · exact n.entry.still (Plain.throwFault _).still

/-- A call for which there is no room throws, and that is all. -/
theorem invokeWith_of_full {H : Type} {w : World H} (hfull : w.maxCallDepth ≤ w.thread.depth)
    (native : NativeCode H) (call : Invoker H) (m : MethodRef) (receiver : Option ObjectRef)
    (args : List Value) : invokeWith native call m receiver args w =
      .error (w.materialize w.overflow).1 (w.materialize w.overflow).2 := by
  have hworld : (Action.world : Guest H _) w = .ok w w := rfl
  refine (Action.bind_ok hworld).trans ?_
  rw [if_pos hfull]
  rfl

/-- A call is noted as what it is. -/
theorem finishes_logged (hnative : NativeFinishes Tallies Notes native)
    (hcall : CallsFinish Tallies Notes call) :
    CallsFinish Tallies Notes (logged (invokeWith native call)) := by
  intro m receiver args w
  unfold logged
  split
  case isTrue hroom =>
    have hroom' : (w.note .began).thread.depth < (w.note .began).maxCallDepth := hroom
    obtain ⟨objects, a, ha, heq⟩ := exists_inCall hnative hcall hroom' m receiver args
    rw [Action.andFinally_congr heq]
    exact finishes_inCall ha objects hroom
  case isFalse hroom =>
    have hfull : w.maxCallDepth ≤ w.thread.depth := Nat.le_of_not_lt hroom
    rw [invokeWith_of_full (w := w.note .refused) hfull]
    have hrefused : Tallies w (w.note .refused) := ⟨rfl, _, logs_refused hfull⟩
    exact tallies_composes.trans hrefused (sameSide_materialize _ _).tallies

/-- Calls tally, however deeply they are nested, if native code does between them. -/
theorem finishes_invokeLogged (hnative : NativeFinishes Tallies Notes native) (fuel : Nat) :
    CallsFinish Tallies Notes (invokeLogged native fuel) := by
  induction fuel with
  | zero => exact fun _ _ _ => .halt tallies_composes _
  | succ fuel ih => exact finishes_logged hnative ih

end Guest

/-! ## Whole runs -/

namespace World

/-- Where too many calls are in progress, every call throws, whatever it calls and whatever that
would do, and nothing is done but to make the throwable. -/
structure Overflows {H : Type} (w : World H) : Prop where
  throws : ∀ (native : NativeCode H) (call : Invoker H) m receiver args,
    Guest.invokeWith native call m receiver args w =
      .error (w.materialize w.overflow).1 (w.materialize w.overflow).2
  className : (w.materialize w.overflow).2.className (w.materialize w.overflow).1 =
    "java/lang/StackOverflowError"
  sameSide : SameSide w (w.materialize w.overflow).2

theorem find?_stackOverflow :
    Registry.basic.find? FaultKind.stackOverflow.className = some ⟨17⟩ := by
  decide +kernel

theorem overflows_of_full {H : Type} {w : World H} (hbasic : Registry.basic.Extends w.registry)
    (hfull : w.maxCallDepth ≤ w.thread.depth) : w.Overflows where
  throws := Guest.invokeWith_of_full hfull
  className := className_materialize (hbasic.find?_eq find?_stackOverflow)
  sameSide := w.sameSide_materialize w.overflow

/-- Where a call, a function of the interface or an initialization that comes next ends, or ends the
run. -/
inductive Comes (calls : Nat → Invoker H) (w : World H) : World H → Prop
  | calls fuel m receiver args : Comes calls w (calls fuel m receiver args w).final
  | asks fuel env {f args} (hs : Interface.Shaped f args) :
    Comes calls w (Interface.callFunction (calls fuel) env f args w : Outcome H Empty _).final
  | initializes fuel c : Comes calls w (Guest.initClass (calls fuel) c w).final

/-- No calls are in progress. -/
def Idle {H : Type} (w : World H) : Prop := ∀ t ∈ w.allThreads, t.depth = 0

/-- No calls are made, and none are left in progress. -/
structure Rests (w w' : World (Logged H)) : Prop where
  limit : w'.maxCallDepth = w.maxCallDepth
  calls : w'.host.calls = w.host.calls
  idle : w.Idle → w'.Idle

/-- So many calls are allowed; every call so far was counted, and none is in progress. -/
structure AtRest (n : Nat) (w : World (Logged H)) : Prop where
  limit : w.maxCallDepth = n
  idle : w.Idle
  lawful : CallEvent.Lawful n (fun _ => 0) w.host.calls
  ended : ∀ t, CallEvent.inProgress w.host.calls t = 0

variable {native : NativeCode (Logged H)} {w w' v : World (Logged H)} {n : Nat}
  {aside : World (Logged H) → World (Logged H) → Prop}

theorem depths_of_idle {H : Type} {w : World H} (h : w.Idle) : w.depths = fun _ => 0 := by
  have hwaiting : ∀ t : Nat, (w.waiting.reverse[t]?.map Thread.depth).getD 0 = 0 := by
    intro t
    cases ht : w.waiting.reverse[t]? with
    | none => rfl
    | some x =>
      have hx : x ∈ w.waiting.reverse := List.mem_of_getElem? ht
      exact h x (.tail _ (List.mem_reverse.1 hx))
  rw [depths, h w.thread (.head _), funext hwaiting]
  exact Function.update_eq_self (f := fun _ : Nat => 0) _

theorem AtRest.tallies (hw : w.AtRest n) (h : Tallies w w') : w'.AtRest n := by
  obtain ⟨hdepth, es, hlogs⟩ := h
  have hended : w.host.calls.foldl CallEvent.after (fun _ => 0) = fun _ => 0 := funext hw.ended
  have hbefore : w.depths = fun _ => 0 := depths_of_idle hw.idle
  have hidle : w'.Idle := by
    intro t ht
    rw [allThreads, hlogs.waiting] at ht
    rcases List.mem_cons.1 ht with rfl | ht
    · exact hdepth.trans (hw.idle _ (.head _))
    · exact hw.idle t (.tail _ ht)
  constructor
  case limit => exact hlogs.limit.trans hw.limit
  case idle => exact hidle
  case lawful =>
    have hlawful := hlogs.lawful
    rw [hbefore, hw.limit] at hlawful
    rw [hlogs.calls, CallEvent.lawful_append, hended]
    exact ⟨hw.lawful, hlawful⟩
  case ended =>
    intro t
    have hafter := hlogs.depths
    rw [depths_of_idle hidle, hbefore] at hafter
    rw [hlogs.calls, CallEvent.inProgress, List.foldl_append, hended, ← hafter]

theorem AtRest.rests (hw : w.AtRest n) (h : Rests w w') : w'.AtRest n where
  limit := h.limit.trans hw.limit
  idle := h.idle hw.idle
  lawful := h.calls ▸ hw.lawful
  ended := h.calls ▸ hw.ended

theorem Rests.of_outerSide (h : w'.outerSide = w.outerSide) : Rests w w' := by
  obtain ⟨hthread, h⟩ := Prod.mk.inj h
  obtain ⟨hwaiting, h⟩ := Prod.mk.inj h
  obtain ⟨hhost, h⟩ := Prod.mk.inj h
  refine ⟨(Prod.mk.inj h).1, by rw [hhost], fun hidle => ?_⟩
  rwa [Idle, allThreads, hthread, hwaiting]

theorem atRest_start (n : Nat) (memory : HostMemory) (host : H) :
    (start n memory ⟨host, []⟩).AtRest n := by
  have hbare : (bare n memory (⟨host, []⟩ : Logged H)).AtRest n :=
    ⟨rfl, List.forall_mem_singleton.2 rfl, trivial, fun _ => rfl⟩
  exact hbare.rests (.of_outerSide (outerSide_start n memory _))

/-- Whatever happens, no calls are left in progress. -/
theorem Steps.atRest (hnative : NativeFinishes Tallies Notes native)
    (haside : ∀ {w w'}, aside w w' → Rests w w') (h : Steps (Guest.invokeLogged native) aside w w')
    (hw : w.AtRest n) : w'.AtRest n := by
  have p : Composable fun w w' : World (Logged H) => w.AtRest n → w'.AtRest n :=
    ⟨fun _ => id, fun h h' hw => h' (h hw)⟩
  refine h.keeps tallies_neutral (fun fuel => (Guest.finishes_invokeLogged hnative fuel).keep) p
    (fun h hw => hw.tallies h) (fun w spec hw => ?_) (fun h hw => hw.rests (haside h)) hw
  exact hw.rests (.of_outerSide (w.outerSide_defineOrKeep spec))

/-- What comes next is counted as far as it goes. -/
theorem Comes.notes (hnative : NativeFinishes Tallies Notes native)
    (h : Comes (Guest.invokeLogged native) w v) : Notes w v := by
  have hcall := Guest.finishes_invokeLogged hnative
  have k := tallies_finishNeutral (H := H)
  cases h with
  | calls fuel m receiver args => exact (hcall fuel m receiver args w).final k.toComposes
  | asks fuel env hs => exact (k.callFunction (hcall fuel) env hs w).final k.toComposes
  | initializes fuel c => exact (k.initClass (hcall fuel) c w).final k.toComposes

theorem AtRest.bounded (hw : w.AtRest n) (h : Notes w v) :
    CallEvent.Bounded n v.host.calls := by
  obtain ⟨es, hcalls, hlawful⟩ := h
  rw [depths_of_idle hw.idle, hw.limit, ← show _ = fun _ => 0 from funext hw.ended] at hlawful
  rw [hcalls]
  exact (CallEvent.lawful_append.2 ⟨hw.lawful, hlawful⟩).bounded

end World

namespace Guest

open World

variable {native : NativeCode (Logged H)}

/-- Over a whole run, whatever classes and native code there are, no thread ever has more calls in
progress than are allowed, and where it has as many, every call throws.  However a call ends, the
thread counts as many calls as before, and at the end of each step none is in progress. -/
theorem call_depth_is_bounded (hnative : NativeFinishes Tallies Notes native)
    {aside : World (Logged H) → World (Logged H) → Prop}
    (haside : ∀ {w w'}, aside w w' → Rests w w') {limit : Nat} {memory : HostMemory} {host : H}
    {w : World (Logged H)}
    (hrun : Steps (invokeLogged native) aside (World.start limit memory ⟨host, []⟩) w) :
    (∀ v, Comes (invokeLogged native) w v → CallEvent.Bounded limit v.host.calls) ∧
    (∀ t, CallEvent.inProgress w.host.calls t = 0) ∧
    (∀ fuel m receiver args v, (invokeLogged native fuel m receiver args v).Leaves fun v' =>
      v'.thread.id = v.thread.id ∧ v'.thread.depth = v.thread.depth) ∧
    ∀ v : World (Logged H), Registry.basic.Extends v.registry →
      v.maxCallDepth ≤ v.thread.depth → v.Overflows := by
  have hw : w.AtRest limit := hrun.atRest hnative haside (atRest_start limit memory host)
  refine ⟨fun v hv => hw.bounded (hv.notes hnative), hw.ended, ?_, fun v => overflows_of_full⟩
  intro fuel m receiver args v
  refine (finishes_invokeLogged hnative fuel m receiver args v).leaves.mono ?_
  rintro v' ⟨hdepth, es, hlogs⟩
  exact ⟨hlogs.id, hdepth⟩

/-! ## A native method that calls itself -/

/-- A class with a native method. -/
def loop : ClassSpec :=
  ⟨"Loop", .concrete, some "java/lang/Object", [], [], [⟨"spin", "()V", true, .native⟩]⟩

def spin : MethodRef := ⟨⟨28⟩, 0⟩

/-- Native code that asks for the number of the method and calls it. -/
def spinner : NativeCode (Logged Unit) := fun call c => do
  let id ← Interface.callFunction call (some c.env) (.getMethodId .static)
    [.handle c.receiver, .text (some [115, 112, 105, 110]), .text (some [40, 41, 86])]
  discard (Interface.callFunction call (some c.env) (.call .static .void)
    [.handle c.receiver, .member id.returned.word, .arguments (some [])])
  return 0

theorem spinner_finishes : NativeFinishes Tallies Notes spinner := by
  intro call hcall c
  have n := tallies_finishNeutral (H := Unit)
  refine Finishes.bind n.toComposes (n.callFunction hcall _ (.getMethodId ..)) fun id => ?_
  have hspin : Finishes Tallies Notes (Interface.callFunction call (some c.env)
      (.call .static .void) [.handle c.receiver, .member id.returned.word, .arguments (some [])] :
      Action (Logged Unit) Empty _) := n.callFunction hcall _ (.callStatic ..)
  exact Finishes.bind n.toComposes (.discard n.toComposes hspin) fun _ => .pure n.toComposes 0

/-- A bridge knows the function of the method. -/
def linkedTo (w : World H) : World H :=
  { w with
    linked := true
    bridge := some ((Bridge.empty .default).addSymbol "Java_Loop_spin" 0x400000)
    bridgeHeld := true }

theorem rests_linkedTo (w : World (Logged H)) : Rests w (linkedTo w) := ⟨rfl, rfl, id⟩

theorem registry_linkedTo (w : World H) : (linkedTo w).registry = w.registry := rfl

/-- The class has been defined, and two calls are allowed. -/
def linkedLoop : World (Logged Unit) := linkedTo ((World.start 2 .growing ⟨(), []⟩).defineOrKeep loop)

theorem steps_linkedLoop (calls : Nat → Invoker (Logged Unit)) :
    Steps calls Rests (World.start 2 .growing ⟨(), []⟩) linkedLoop :=
  .tail (.single (.defines loop)) (.aside (rests_linkedTo _))

theorem calls_of_spin : (invokeLogged spinner 3 spin none [] linkedLoop).final.host.calls =
    [.began 0, .began 0, .refused 0, .ended 0, .ended 0] := by
  decide +kernel

theorem basic_extends_linkedLoop : Registry.basic.Extends linkedLoop.registry := by
  have hstart := within_start 2 .growing (⟨(), []⟩ : Logged Unit)
  rw [linkedLoop, registry_linkedTo]
  exact (hstart.toInOrderBut.follows_define loop).inOrder.basic

/-- The method calls itself through native code: the second call within the first one is the last
for which there is room, and the third one is refused.  All of them end. -/
theorem spin_is_bounded : NativeFinishes Tallies Notes spinner ∧
    Steps (invokeLogged spinner) Rests (World.start 2 .growing ⟨(), []⟩) linkedLoop ∧
    CallEvent.Bounded 2 [.began 0, .began 0, .refused 0, .ended 0, .ended 0] ∧
    (invokeLogged spinner 3 spin none [] linkedLoop).final.host.calls =
      [.began 0, .began 0, .refused 0, .ended 0, .ended 0] ∧
    (linkedLoop.setDepth 2).Overflows := by
  have hsteps := steps_linkedLoop (invokeLogged spinner)
  obtain ⟨hbounded, -, -, hfull⟩ := call_depth_is_bounded spinner_finishes id hsteps
  have hspin := hbounded _ (.calls 3 spin none [])
  rw [calls_of_spin] at hspin
  have hlimit : linkedLoop.maxCallDepth = 2 :=
    (hsteps.atRest spinner_finishes id (atRest_start 2 .growing ())).limit
  exact ⟨spinner_finishes, hsteps, hspin, calls_of_spin,
    hfull (linkedLoop.setDepth 2) basic_extends_linkedLoop (Nat.le_of_eq hlimit)⟩

end Guest

end GuestBoundary
