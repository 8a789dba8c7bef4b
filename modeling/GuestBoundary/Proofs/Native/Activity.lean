import GuestBoundary.Proofs.Native.Attachments
import GuestBoundary.Proofs.Native.Unbalanced

/-!
# Detaching while native methods run

A thread must not be detached while native methods run on it.  Whether any does is told from the
number of its frames.  `Reached` lets threads come and go, attach and detach, enter native methods
and leave them again, and open and close frames of their own in between; next to the state it keeps
what each thread is about (`Activity`).  A native method counts for one frame, but so does every
frame that native code opens, and one that it closes makes up for a method (`Activity.Fits`): a
detachment is refused exactly if there are more frames than the first, whether or not a native
method runs (`detach_of_reached`).
-/

namespace GuestBoundary.Native

variable {H : Type}

/-! ## What threads are about -/

/-- What a thread is about. -/
structure Activity where
  /-- The native methods that run on it, but were entered in an attachment that is gone. -/
  earlier : Nat
  /-- The other native methods that run on it. -/
  active : Nat
  /-- What is recorded since it was attached, apart from the methods that run. -/
  events : List Event

namespace Activity

/-- Nothing. -/
def idle : Activity := ⟨0, 0, []⟩

/-- The native methods that run on the thread. -/
def running (t : Activity) : Nat := t.earlier + t.active

/-- The frames above the first that native methods and their code account for. -/
def frames (t : Activity) : Int := t.active + Event.net t.events

def enter (t : Activity) : Activity := { t with active := t.active + 1 }

def leave (t : Activity) : Activity := { t with active := t.active - 1 }

def note (t : Activity) (es : List Event) : Activity := { t with events := t.events ++ es }

/-- The attachment is gone, and the native methods go on. -/
def detach (t : Activity) : Activity := ⟨t.running, 0, []⟩

/-- The frames of a thread are those that its activity accounts for, and the first one. -/
structure Fits (t : Activity) (attachment : Option Attachment) : Prop where
  unattached : attachment = none → t.frames = 0
  depth : ∀ a, attachment = some a → (a.locals.depth : Int) = t.frames + 1

theorem Fits.of_depth {t : Activity} {attachment : Option Attachment} {a : Attachment}
    (ha : attachment = some a) (hdepth : (a.locals.depth : Int) = t.frames + 1) :
    t.Fits attachment := by
  refine ⟨fun hnone => ?_, fun b hb => ?_⟩
  · rw [ha] at hnone
    cases hnone
  · rw [ha] at hb
    cases hb
    exact hdepth

theorem frames_enter (t : Activity) : t.enter.frames = t.frames + 1 := by
  simp only [frames, enter]
  omega

theorem frames_leave {t : Activity} (h : 0 < t.active) : t.leave.frames = t.frames - 1 := by
  simp only [frames, leave]
  omega

theorem frames_note (t : Activity) (es : List Event) :
    (t.note es).frames = t.frames + Event.net es := by
  simp only [frames, note, Event.net_append]
  omega

end Activity

/-! ## What threads do -/

/-- What the running thread can do to a state and to what it is about. -/
inductive Acts (natives : NativeCall → Program H) :
    World (Recorded H) → Activity → World (Recorded H) → Activity → Prop
  | attach {w : World (Recorded H)} {t : Activity} {b : Bridge} (hb : w.bridge = some b) :
    Acts natives w t (w.attach b).2 t
  | detach {w : World (Recorded H)} {t : Activity} (h : w.detach.1 = .ok) :
    Acts natives w t w.detach.2 t.detach
  /-- A native method is called, whose function is about to run. -/
  | enter {w w' : World (Recorded H)} {t : Activity} {env : Env} {binding : Binding}
    {receiver : ObjectRef} {args : List Value} {c : NativeCall}
    (h : prepare env binding receiver args w = .ok c w') : Acts natives w t w' t.enter
  /-- The function of a native method returns, in the attachment in which it was called. -/
  | leave {w w' : World (Recorded H)} {t : Activity} {v : Value} {r : Except EntryError Value}
    (hactive : 0 < t.active) (h : finish (.ok v) w = .returned r w')
    (hr : r ≠ .error (.contract .unbalancedFrame)) : Acts natives w t w' t.leave
  /-- A native method is called and returns, or its function is not reached. -/
  | call {w w' : World (Recorded H)} {t : Activity} {fuel : Nat} {env : Env} {binding : Binding}
    {receiver : ObjectRef} {args : List Value} {r : Except EntryError Value} {es : List Event}
    (hattached : w.attachment.isSome = true)
    (h : callBound (Program.code natives) (Guest.invoke (Program.code natives) fuel) env binding
      receiver args w = .returned r w')
    (hr : ∀ v, r ≠ .error (.contract v)) (htrace : w'.host.trace = w.host.trace ++ es) :
    Acts natives w t w' (t.note es)
  /-- Code that has an environment does its work, be it of a native method or not. -/
  | work {w w' : World (Recorded H)} {t : Activity} {fuel : Nat} {program : Program H}
    {word : Slot} {es : List Event} (hattached : w.attachment.isSome = true)
    (h : program.run (Guest.invoke (Program.code natives) fuel) w = .ok word w')
    (htrace : w'.host.trace = w.host.trace ++ es) : Acts natives w t w' (t.note es)
  /-- Something happens that does not touch the references of the thread. -/
  | aside {w w' : World (Recorded H)} {t : Activity}
    (h : w'.attachment.map Attachment.locals = w.attachment.map Attachment.locals) :
    Acts natives w t w' t

/-- The states that threads get to, with what each of them is about, the running one first. -/
inductive Reached (natives : NativeCall → Program H) : World (Recorded H) → List Activity → Prop
  /-- There is one thread, and it is not attached. -/
  | start {w : World (Recorded H)} (hnone : w.attachment = none) (hwaiting : w.waiting = []) :
    Reached natives w [.idle]
  /-- The running thread does something, and the others wait. -/
  | act {w w' : World (Recorded H)} {t t' : Activity} {ts : List Activity}
    (hw : Reached natives w (t :: ts)) (h : Acts natives w t w' t')
    (hwaiting : w'.waiting = w.waiting) : Reached natives w' (t' :: ts)
  /-- A new thread runs. -/
  | begin {w : World (Recorded H)} {ts : List Activity} (hw : Reached natives w ts) :
    Reached natives (happen w .start) (.idle :: ts)
  /-- A thread that waited runs. -/
  | resume {w : World (Recorded H)} {t t' : Activity} {ts : List Activity} (i : Nat)
    (hw : Reached natives w (t :: ts)) (hi : ts[i]? = some t') :
    Reached natives (happen w (.resume i)) (t' :: ts.set i t)
  /-- The running thread ends. -/
  | finish {w : World (Recorded H)} {t t' : Activity} {ts : List Activity}
    (hw : Reached natives w (t :: t' :: ts)) : Reached natives (happen w .finish) (t' :: ts)

/-! ## How many frames there are -/

theorem allThreads_releaseBridge (w : World H) : w.releaseBridge.allThreads = w.allThreads := by
  unfold World.releaseBridge
  split <;> rfl

theorem detach_of_ok {w : World H} (h : w.detach.1 = .ok) :
    w.detach.2 = (w.setAttachment none).releaseBridge := by
  unfold World.detach at h ⊢
  split at h
  · cases h
  · split at h
    · cases h
    next hdepth => exact congrArg Prod.snd (if_neg hdepth)

theorem thread_of_detach {w : World H} (h : w.detach.1 = .ok) :
    w.detach.2.attachment = none ∧ w.detach.2.waiting = w.waiting := by
  obtain ⟨hthread, hwaiting⟩ := List.cons.inj (allThreads_releaseBridge (w.setAttachment none))
  rw [detach_of_ok h]
  exact ⟨congrArg Thread.attachment hthread, hwaiting⟩

theorem depth_of_prepare {w w' : World H} {env : Env} {binding : Binding} {receiver : ObjectRef}
    {args : List Value} {c : NativeCall} (h : prepare env binding receiver args w = .ok c w') :
    ∃ a a', w.attachment = some a ∧ w'.attachment = some a' ∧
      a'.locals.depth = a.locals.depth + 1 := by
  obtain ⟨a, ha, -, hmarshal⟩ := of_prepare_ok h
  have hquiet : (marshal env binding receiver args (opened w a args)).Leaves
      (Quiet (opened w a args)) := obeys_marshal quiet_neutral.rules env binding receiver args _
  rw [hmarshal] at hquiet
  obtain ⟨a', ops, ha', hlocals, p⟩ := hquiet.did.inside
  have hdepth := p.depth
  have hopened : (a.locals.opened (frameCapacity args)).depth = a.locals.depth + 1 := rfl
  have hnet : Event.net [] = 0 := rfl
  rw [← hlocals, hopened, hnet] at hdepth
  exact ⟨a, a', ha, ha', by omega⟩

theorem depth_of_finish {w w' : World H} {v : Value} {r : Except EntryError Value}
    (h : finish (.ok v) w = .returned r w') (hr : r ≠ .error (.contract .unbalancedFrame)) :
    ∃ a a', w.attachment = some a ∧ w'.attachment = some a' ∧
      a.locals.depth = a'.locals.depth + 1 := by
  cases ha : w.attachment with
  | none =>
    rw [finish_of_none ha] at h
    cases r <;> cases h
  | some a =>
    rw [finish_eq ha] at h
    cases hpop : a.locals.pop? none with
    | none =>
      rw [hpop] at h
      cases r with
      | ok v => cases h
      | error e =>
        cases h
        exact absurd rfl hr
    | some closed =>
      rw [hpop] at h
      obtain ⟨rfl, -⟩ := of_settle_ok h.symm
      exact ⟨a, _, rfl, rfl, Locals.depth_pop? hpop⟩

theorem Activity.Fits.followed {t : Activity} {w w' : World (Recorded H)} {es : List Event}
    (hattached : w.attachment.isSome = true) (ht : t.Fits w.attachment) (h : Followed w w')
    (htrace : w'.host.trace = w.host.trace ++ es) : (t.note es).Fits w'.attachment := by
  obtain ⟨es', htrace', hdid⟩ := h
  obtain rfl : es = es' := List.append_cancel_left (htrace.symm.trans htrace')
  obtain ⟨a, ha⟩ := Option.isSome_iff_exists.1 hattached
  obtain ⟨a', ops, ha', hlocals, p⟩ := hdid a ha
  have hdepth := p.depth
  have hbefore := ht.depth a ha
  rw [← hlocals] at hdepth
  refine .of_depth ha' ?_
  rw [t.frames_note]
  omega

theorem Activity.Fits.attach {t : Activity} {w : World H} (ht : t.Fits w.attachment) (b : Bridge) :
    t.Fits (w.attach b).2.attachment := by
  unfold World.attach
  split
  case h_1 => exact ht
  case h_2 hnone =>
    refine .of_depth rfl ?_
    rw [ht.unattached hnone]
    rfl

theorem Activity.Fits.congr {t : Activity} {before after : Option Attachment} (ht : t.Fits before)
    (h : after.map Attachment.locals = before.map Attachment.locals) : t.Fits after := by
  cases after with
  | none =>
    have hnone : before = none := Option.map_eq_none_iff.1 h.symm
    exact ⟨fun _ => ht.unattached hnone, nofun⟩
  | some a =>
    obtain ⟨b, hb, hlocals⟩ := Option.map_eq_some_iff.1 h.symm
    exact .of_depth rfl (hlocals ▸ ht.depth b hb)

/-- What the running thread does keeps count of its frames. -/
theorem Acts.fits {natives : NativeCall → Program H} {w w' : World (Recorded H)}
    {t t' : Activity} (h : Acts natives w t w' t') (ht : t.Fits w.attachment) :
    t'.Fits w'.attachment := by
  cases h with
  | attach hb => exact ht.attach _
  | detach hok =>
    rw [(thread_of_detach hok).1]
    exact ⟨fun _ => rfl, nofun⟩
  | enter hprepare =>
    obtain ⟨a, a', ha, ha', hdepth⟩ := depth_of_prepare hprepare
    have hbefore := ht.depth a ha
    refine .of_depth ha' ?_
    rw [t.frames_enter]
    omega
  | leave hactive hfinish hr =>
    obtain ⟨a, a', ha, ha', hdepth⟩ := depth_of_finish hfinish hr
    have hbefore := ht.depth a ha
    refine .of_depth ha' ?_
    rw [Activity.frames_leave hactive]
    omega
  | @call _ _ fuel env binding receiver args r es hattached hcall hr htrace =>
    have habides : Abides Followed (callBound (Program.code natives)
        (Guest.invoke (Program.code natives) fuel) env binding receiver args) :=
      abides_callBound (keeps_recorded_invoke natives fuel) env binding receiver args
    have hran := habides w
    rw [hcall] at hran
    rcases hran with ⟨v, w₁, h⟩ | h
    · cases r with
      | ok v => cases h
      | error e =>
        cases h
        exact absurd rfl (hr v)
    · refine ht.followed hattached ?_ htrace
      cases r <;> exact h
  | @work _ _ fuel program word es hattached hrun htrace =>
    have hran := returns_run (keeps_recorded_invoke natives fuel) program w
    rw [hrun] at hran
    exact ht.followed hattached hran htrace
  | aside h => exact ht.congr h

theorem forall₂_set {α β : Type} {R : α → β → Prop} {xs : List α} {ys : List β}
    (h : List.Forall₂ R xs ys) {x : α} {y : β} (hxy : R x y) (i : Nat) :
    List.Forall₂ R (xs.set i x) (ys.set i y) := by
  induction h generalizing i with
  | nil => exact .nil
  | cons h hs ih =>
    cases i with
    | zero => exact .cons hxy hs
    | succ i => exact .cons h (ih i)

theorem forall₂_getElem? {α β : Type} {R : α → β → Prop} {xs : List α} {ys : List β}
    (h : List.Forall₂ R xs ys) {i : Nat} {y : β} (hy : ys[i]? = some y) :
    ∃ x, xs[i]? = some x ∧ R x y := by
  induction h generalizing i with
  | nil => cases hy
  | cons h hs ih =>
    cases i with
    | zero =>
      cases hy
      exact ⟨_, rfl, h⟩
    | succ i => exact ih hy

/-- The frames of every thread are those that its activity accounts for. -/
theorem Reached.fits {natives : NativeCall → Program H} {w : World (Recorded H)}
    {ts : List Activity} (hw : Reached natives w ts) :
    List.Forall₂ (fun thread (t : Activity) => t.Fits thread.attachment) w.allThreads ts := by
  induction hw with
  | @start w hnone hwaiting =>
    rw [World.allThreads, hwaiting]
    exact .cons ⟨fun _ => rfl, fun a ha => absurd (hnone.symm.trans ha) nofun⟩ .nil
  | @act w w' t t' ts _ h hwaiting ih =>
    obtain ⟨ht, hts⟩ := List.forall₂_cons.1 ih
    rw [World.allThreads, hwaiting]
    exact .cons (h.fits ht) hts
  | begin _ ih => exact .cons ⟨fun _ => rfl, nofun⟩ ih
  | @resume w t t' ts i _ hi ih =>
    obtain ⟨ht, hts⟩ := List.forall₂_cons.1 ih
    obtain ⟨thread, hthread, ht'⟩ := forall₂_getElem? hts hi
    simp only [happen, hthread]
    exact .cons ht' (forall₂_set hts ht i)
  | @finish w t t' ts _ ih =>
    obtain ⟨ht, hts⟩ := List.forall₂_cons.1 ih
    obtain ⟨thread, waiting, ht', hts', hwaiting⟩ := List.forall₂_cons_right_iff.1 hts
    have hrest : (happen w .finish).allThreads = w.waiting := by
      simp only [happen, hwaiting]
      exact allThreads_releaseBridge _
    rw [hrest]
    exact hts

/-! ## Detachments -/

/-- How a thread is detached that is about `t`. -/
structure Detaches (w : World H) (t : Activity) : Prop where
  unattached : w.attachment = none → w.detach = (.detached, w)
  /-- There are more frames than the first. -/
  refused : w.attachment.isSome = true → 0 < t.frames → w.detach = (.err, w)
  /-- The references of the thread and what is pending are dropped. -/
  detached : w.attachment.isSome = true → ¬ 0 < t.frames →
    w.detach.1 = .ok ∧ w.detach.2.attachment = none ∧ w.detach.2.waiting = w.waiting
  /-- The answer tells whether a native method runs exactly if the number of frames does. -/
  tells : w.attachment.isSome = true →
    ((w.detach.1 = .err ↔ 0 < t.running) ↔ (0 < t.frames ↔ 0 < t.running))
  /-- As it does if native code closes the frames that it opens, and no others. -/
  even : w.attachment.isSome = true → t.earlier = 0 → Event.net t.events = 0 →
    (w.detach.1 = .err ↔ 0 < t.running)

theorem Activity.Fits.detach_refused {t : Activity} {w : World H} (ht : t.Fits w.attachment)
    (hattached : w.attachment.isSome = true) (hframes : 0 < t.frames) : w.detach = (.err, w) := by
  obtain ⟨a, ha⟩ := Option.isSome_iff_exists.1 hattached
  have hdepth := ht.depth a ha
  unfold World.detach
  simp only [ha]
  exact if_pos (by omega)

theorem Activity.Fits.detach_ok {t : Activity} {w : World H} (ht : t.Fits w.attachment)
    (hattached : w.attachment.isSome = true) (hframes : ¬ 0 < t.frames) : w.detach.1 = .ok := by
  obtain ⟨a, ha⟩ := Option.isSome_iff_exists.1 hattached
  have hdepth := ht.depth a ha
  unfold World.detach
  simp only [ha]
  rw [if_neg (by omega)]

/-- A detachment is refused exactly if the thread has more frames than the first. -/
theorem detach_of_reached {natives : NativeCall → Program H} {w : World (Recorded H)}
    {t : Activity} {ts : List Activity} (hw : Reached natives w (t :: ts)) : Detaches w t := by
  obtain ⟨ht, -⟩ := List.forall₂_cons.1 hw.fits
  have herr : w.attachment.isSome = true → (w.detach.1 = .err ↔ 0 < t.frames) := by
    intro hattached
    by_cases hframes : 0 < t.frames
    · rw [ht.detach_refused hattached hframes]
      exact iff_of_true rfl hframes
    · rw [ht.detach_ok hattached hframes]
      exact iff_of_false nofun hframes
  constructor
  case unattached =>
    intro hnone
    rw [World.detach, hnone]
  case refused => exact ht.detach_refused
  case detached =>
    intro hattached hframes
    have hok := ht.detach_ok hattached hframes
    exact ⟨hok, thread_of_detach hok⟩
  case tells =>
    intro hattached
    rw [herr hattached]
  case even =>
    intro hattached hearlier hnet
    rw [herr hattached, Activity.frames, hnet, Activity.running, hearlier]
    omega

/-- An attached thread. -/
def attachedThread : World (Recorded Unit) :=
  (((World.bare World.defaultCallDepth .growing ⟨(), []⟩).install .default).attach (.empty .default)).2

theorem reached_attachedThread (natives : NativeCall → Program Unit) :
    Reached natives attachedThread [.idle] := by
  have hstart : Reached natives
      ((World.bare World.defaultCallDepth .growing ⟨(), []⟩).install .default) [.idle] := .start rfl rfl
  exact hstart.act (.attach rfl) rfl

/-- The thread inside a native method without arguments. -/
def insideThread : World (Recorded Unit) :=
  attachedThread.setAttachment (some ⟨0, callerLocals, .empty⟩)

theorem reached_insideThread (natives : NativeCall → Program Unit) :
    Reached natives insideThread [Activity.idle.enter] := by
  obtain ⟨c, hprepare⟩ : ∃ c, prepare ⟨⟨0⟩, 0⟩ plainBinding ⟨0⟩ [] attachedThread =
      .ok c insideThread := ⟨_, rfl⟩
  exact (reached_attachedThread natives).act (.enter hprepare) rfl

theorem insideThread_not_detached :
    Reached tidy insideThread [Activity.idle.enter] ∧ insideThread.detach = (.err, insideThread) :=
  ⟨reached_insideThread tidy,
    (detach_of_reached (reached_insideThread tidy)).refused rfl (by decide)⟩

/-- A thread that opens a frame outside of any native method is not detached; one that closes the
frame of a native method is. -/
theorem detach_misjudges :
    (∃ (w : World (Recorded Unit)) (t : Activity), Reached tidy w [t] ∧ t.running = 0 ∧
      w.detach.1 = .err) ∧
    ∃ (w : World (Recorded Unit)) (t : Activity), Reached tidy w [t] ∧ t.running = 1 ∧
      w.detach.1 = .ok := by
  constructor
  · obtain ⟨word, w, hrun, htrace, hwaiting, hdetach⟩ : ∃ word w,
        (opensFrame ⟨⟨0⟩, ⟨⟨0⟩, 0⟩, .null, []⟩).run (Guest.invoke (Program.code tidy) 0)
          attachedThread = .ok word w ∧
        w.host.trace = attachedThread.host.trace ++ [.pushed] ∧ w.waiting = [] ∧
        w.detach.1 = .err := ⟨_, _, rfl, rfl, rfl, rfl⟩
    exact ⟨w, _, (reached_attachedThread tidy).act (.work rfl hrun htrace) hwaiting, rfl, hdetach⟩
  · obtain ⟨word, w, hrun, htrace, hwaiting, hdetach⟩ : ∃ word w,
        (closesFrame ⟨⟨0⟩, ⟨⟨0⟩, 0⟩, .null, []⟩).run (Guest.invoke (Program.code tidy) 0)
          insideThread = .ok word w ∧
        w.host.trace = insideThread.host.trace ++ [.popped] ∧ w.waiting = [] ∧
        w.detach.1 = .ok := ⟨_, _, rfl, rfl, rfl, rfl⟩
    exact ⟨w, _, (reached_insideThread tidy).act (.work rfl hrun htrace) hwaiting, rfl, hdetach⟩

end GuestBoundary.Native
