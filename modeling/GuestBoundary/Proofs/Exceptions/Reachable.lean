import GuestBoundary.Proofs.Exceptions.Natives
import GuestBoundary.Proofs.Guest.Runs

/-!
# States with pending throwables

Native code, guest code and the embedding program take turns, on threads that come and go.
`Reachable` says which states they can get to: calls of the interface are made, the embedding
program raises or has guest code run, and time passes that makes nothing pending, such as when
threads are attached or native methods are entered and left.  Every reachable state is sound; what
is pending there is throwable, if the run is clean.
-/

namespace GuestBoundary

variable {H ε α : Type}

open World Interface

/-! ## Passing time -/

namespace World

variable {w w' : World H} {strict : Bool}

/-- Something happens, on any thread, that makes nothing pending.  No more calls are in progress
than may be, attached threads have a bridge, and classes and objects stay what they are. -/
structure Passes (w w' : World H) : Prop where
  shallow : w'.thread.depth ≤ w'.maxCallDepth
  bridged : ∀ a ∈ w'.attached, w'.bridge.isSome = true
  pending : ∀ a' ∈ w'.attached, ∀ o, a'.pending.slot = some o →
    ∃ a ∈ w.attached, a.pending.slot = some o
  registry : w.registry.Extends w'.registry
  heap : w.heap.Grows w'.heap

theorem Sound.passes (hw : Sound strict w) (h : Passes w w') : Sound strict w' where
  shallow := h.shallow
  bridged := h.bridged
  throwables := hw.throwables.mono h.registry
  clean hstrict a' ha' o ho := by
    obtain ⟨a, ha, ho⟩ := h.pending a' ha' o ho
    exact (hw.clean hstrict a ha o ho).mono hw.throwables h.registry h.heap

theorem Passes.trans {w'' : World H} (h : Passes w w') (h' : Passes w' w'') : Passes w w'' where
  shallow := h'.shallow
  bridged := h'.bridged
  pending a ha o ho := by
    obtain ⟨a', ha', ho'⟩ := h'.pending a ha o ho
    exact h.pending a' ha' o ho'
  registry := h.registry.trans h'.registry
  heap := h.heap.trans h'.heap

theorem Sound.loose (hw : Sound strict w) : Sound false w :=
  ⟨hw.shallow, hw.bridged, hw.throwables, nofun⟩

/-- What runs calmly makes nothing pending. -/
theorem Sound.passes_of_calm (hw : Sound strict w) (h : Calm w w') : Passes w w' where
  shallow := (hw.calm h).shallow
  bridged := (hw.calm h).bridged
  pending a' ha' o ho := by
    rcases mem_attached.1 ha' with ha' | ⟨t, ht, ha'⟩
    · have hpending : w'.pending = some o := by rw [World.pending, ha']; exact ho
      rcases h.pending with hp | hp
      · rw [hp] at hpending
        obtain ⟨a, ha, ho⟩ := Option.bind_eq_some_iff.1 hpending
        exact ⟨a, mem_attached.2 (.inl ha), ho⟩
      · cases hp.symm.trans hpending
    · rw [h.waiting] at ht
      exact ⟨a', mem_attached.2 (.inr ⟨t, ht, ha'⟩), ho⟩
  registry := h.registry
  heap := h.heap

/-- Threads start, wait, go on and end. -/
theorem Sound.passes_threads (hw : Sound strict w) {t : Thread} {ts : List Thread}
    (hdepth : t.depth ≤ w.maxCallDepth)
    (hold : ∀ a ∈ ({ w with thread := t, waiting := ts } : World H).attached, a ∈ w.attached) :
    Passes w { w with thread := t, waiting := ts } where
  shallow := hdepth
  bridged a ha := hw.bridged a (hold a ha)
  pending a ha _ ho := ⟨a, hold a ha, ho⟩
  registry := .refl _
  heap := .refl _

/-- The bridge goes away once no thread is attached. -/
theorem Sound.passes_releaseBridge (hw : Sound strict w) : Passes w w.releaseBridge := by
  unfold releaseBridge
  split
  case isTrue => exact hw.passes_of_calm (.refl w)
  case isFalse h =>
    have hnone : ∀ a, a ∉ w.attached := by
      intro a ha
      obtain ⟨t, ht, ha⟩ := List.mem_filterMap.1 ha
      exact h (Bool.or_eq_true_iff.2 (.inr (List.any_eq_true.2 ⟨t, ht, by rw [ha]; rfl⟩)))
    exact ⟨hw.shallow, fun a ha => absurd ha (hnone a), fun a ha => absurd ha (hnone a), .refl _,
      .refl _⟩

/-- A thread is detached. -/
theorem Sound.passes_detach (hw : Sound strict w) : Passes w w.detach.2 := by
  have hstays := hw.passes_of_calm (.refl w)
  unfold detach
  cases w.attachment with
  | none => exact hstays
  | some a =>
    dsimp only
    split
    case isTrue => exact hstays
    case isFalse =>
      have hgone : Passes w (w.setAttachment none) := by
        let t : Thread := { w.thread with attachment := none }
        refine hw.passes_threads (t := t) hw.shallow fun a ha => ?_
        rcases mem_attached.1 ha with ha | hwaiting
        · cases ha
        · exact mem_attached.2 (.inr hwaiting)
      exact hgone.trans (hw.passes hgone).passes_releaseBridge

theorem calm_defineOrKeep (w : World H) (spec : ClassSpec) : w.Calm (w.defineOrKeep spec) := by
  rcases w.defineOrKeep_cases spec with heq | ⟨k, s, heq, -, hk⟩ <;> rw [heq]
  · exact .refl w
  · exact .of_eq rfl (Registry.extends_push hk) (.refl _)

/-- A run starts soundly. -/
theorem sound_start (strict : Bool) (maxCallDepth : Nat) (memory : HostMemory) (host : H) :
    Sound strict (start maxCallDepth memory host) := by
  obtain ⟨hthread, h⟩ := Prod.mk.inj (outerSide_start maxCallDepth memory host)
  have hwaiting : (start maxCallDepth memory host).waiting = [] := (Prod.mk.inj h).1
  have hnone : (start maxCallDepth memory host).attached = [] := by
    rw [attached, allThreads, hwaiting, show (start maxCallDepth memory host).thread = _ from hthread]
    rfl
  refine ⟨?_, ?_, ?_, fun _ => ?_⟩
  · rw [show (start maxCallDepth memory host).thread = _ from hthread]
    exact Nat.zero_le _
  · rw [hnone]
    exact fun _ ha => absurd ha List.not_mem_nil
  · rw [Registry.registry_start]
    exact Registry.hasThrowables_basic
  · rw [PendingThrowable, hnone]
    exact fun _ ha => absurd ha List.not_mem_nil

end World

/-! ## Commands of the embedding program -/

namespace Guest

variable {strict : Bool} {n : Nat} {call : Invoker H}

theorem conducts_command (hcall : CallsConduct strict strict n call) (command : Command) :
    Conducts strict false n (command.run call) := by
  have k := guest_rules (H := H) strict false n
  have hloose := hcall.unchecked
  cases command with
  | define spec => exact .update fun w => w.calm_defineOrKeep spec
  | prepare c => exact conducts_initClass hloose c
  | allocate c => exact .bind (k.allocate hloose c) fun _ => k.plain (.pure ())
  | call m receiver args => exact .bind (hloose m receiver args) fun _ => k.plain (.pure ())
  | evaluate e =>
    exact .bind ((guest_congruence strict n).evaluate none [] hloose e) fun _ => k.plain (.pure ())

end Guest

/-! ## Reachable states -/

namespace Native

/-- Guest code throws only throwables in a run: the strict run comes to the same. -/
def ThrowsThrowables (natives : NativeCall → Program H) (fuel : Nat)
    (run : Invoker (Recorded H) → Outcome (Recorded H) ε α) : Prop :=
  run (Guest.invokeWithin true (Program.code natives) fuel) =
    run (Guest.invoke (Program.code natives) fuel)

/-- The states that there can be on the way of a run, also while native functions run that were
called from guest code.  If the run is `clean`, guest code throws only throwables in it. -/
inductive Reachable (natives : NativeCall → Program H) (clean : Bool) :
    World (Recorded H) → Prop
  | start (maxCallDepth : Nat) (memory : HostMemory) (host : Recorded H) :
    Reachable natives clean (World.start maxCallDepth memory host)
  | passes {w w' : World (Recorded H)} (hw : Reachable natives clean w) (h : w.Passes w') :
    Reachable natives clean w'
  /-- The embedding program raises. -/
  | raise {w w' : World (Recorded H)} {f : GuestFault} (hw : Reachable natives clean w)
    (h : raise f w = (.ok () w' : Outcome _ Empty Unit)) : Reachable natives clean w'
  /-- Native code calls a function of the interface. -/
  | call {w w' : World (Recorded H)} {fuel : Nat} {env : Option Env} {f : Function}
    {args : List Argument} {answer : Answer} (hw : Reachable natives clean w)
    (room : w.maxCallDepth < w.thread.depth + fuel) (henv : Admits w env) (hs : Shaped f args)
    (hvalue : ∀ value, storedArgument? f args = some value → value.IsValue)
    (hclean : clean = true → ThrowsThrowables natives fuel fun call =>
      (callFunction call env f args w : Outcome _ Empty Answer))
    (h : callFunction (Guest.invoke (Program.code natives) fuel) env f args w =
      (.ok answer w' : Outcome _ Empty Answer)) : Reachable natives clean w'
  /-- Native code calls a stub. -/
  | stub {w w' : World (Recorded H)} {env : Option Env} {name : String} {answer : Answer}
    (hw : Reachable natives clean w) (henv : Admits w env)
    (h : callStub env name w = (.ok answer w' : Outcome _ Empty Answer)) :
    Reachable natives clean w'
  /-- The embedding program has something done by guest code. -/
  | run {w w' : World (Recorded H)} {fuel : Nat} {command : Guest.Command}
    {r : Except ObjectRef Unit} (hw : Reachable natives clean w)
    (room : w.maxCallDepth < w.thread.depth + fuel)
    (hclean : clean = true → ThrowsThrowables natives fuel fun call => command.run call w)
    (h : command.run (Guest.invoke (Program.code natives) fuel) w = .returned r w') :
    Reachable natives clean w'

/-- In a clean run it does not matter whether it is strict. -/
theorem of_clean {natives : NativeCall → Program H} {fuel : Nat} {clean : Bool}
    {run : Invoker (Recorded H) → Outcome (Recorded H) ε α}
    (h : clean = true → ThrowsThrowables natives fuel run) :
    run (Guest.invokeWithin clean (Program.code natives) fuel) =
      run (Guest.invoke (Program.code natives) fuel) := by
  cases clean with
  | true => exact h rfl
  | false => rw [Guest.invokeWithin_false]

section Sound

variable {natives : NativeCall → Program H} (hnatives : ∀ c, (natives c).Proper c.env)
  {clean : Bool} {w : World (Recorded H)}
include hnatives

/-- Every reachable state is sound. -/
theorem Reachable.sound (hw : Reachable natives clean w) : Sound clean w := by
  induction hw with
  | start maxCallDepth memory host => exact sound_start clean maxCallDepth memory host
  | passes _ h ih => exact ih.passes h
  | @raise w _ f _ h ih =>
    cases h
    have same := w.sameSide_materialize f
    exact (ih.calm same.calm).setPending fun _ => isThrowable_materialize ih.throwables f
  | @call w _ fuel env f args _ _ room henv hs hvalue hclean h ih =>
    have hcall := conducts_calls hnatives clean fuel
    have hguarded := guarded_callFunction (ε := Empty) ⟨ih, room⟩ henv hcall hs hvalue
    rw [of_clean hclean, h] at hguarded
    cases hguarded with
    | raised _ _ sound _ => exact sound
    | completed _ _ sound _ => exact sound
  | @stub w _ env name _ _ henv h ih =>
    have hguarded := guarded_callStub (ε := Empty) ih henv name
    rw [h] at hguarded
    cases hguarded with
    | raised _ _ sound _ => exact sound
    | completed _ _ sound _ => exact sound
  | @run w _ fuel command r _ room hclean h ih =>
    have hcall := conducts_calls hnatives clean fuel
    have hran := Guest.conducts_command hcall command w ⟨ih, room⟩
    rw [of_clean hclean, h] at hran
    cases r with
    | ok x => exact ih.calm hran
    | error o => exact ih.calm hran.1

/-! ### Turns that make nothing pending -/

theorem Reachable.calm {w' : World (Recorded H)} (hw : Reachable natives clean w) (h : w.Calm w') :
    Reachable natives clean w' := .passes hw ((hw.sound hnatives).passes_of_calm h)

/-- A thread is attached. -/
theorem Reachable.attach (hw : Reachable natives clean w) {b : Bridge} (hb : w.bridge = some b) :
    Reachable natives clean (w.attach b).2 := hw.calm hnatives (calm_attach hb)

/-- A run starts with a bridge that is put in charge, and the thread is attached. -/
theorem Reachable.attached_start (maxCallDepth : Nat) (memory : HostMemory) (host : Recorded H)
    (config : Config) : Reachable natives clean
      (((World.start maxCallDepth memory host).install config).attach (.empty config)).2 := by
  have hstart : Reachable natives clean (World.start maxCallDepth memory host) := .start _ _ _
  generalize World.start maxCallDepth memory host = w at hstart
  have hinstall : w.Calm (w.install config) :=
    .of_thread rfl rfl rfl (fun _ => rfl) (.refl _) (.refl _)
  exact (hstart.calm hnatives hinstall).attach hnatives rfl

theorem Reachable.detach (hw : Reachable natives clean w) : Reachable natives clean w.detach.2 :=
  .passes hw (hw.sound hnatives).passes_detach

/-- Another thread runs, and others wait. -/
theorem Reachable.threads (hw : Reachable natives clean w) {t : Thread} {ts : List Thread}
    (hdepth : t.depth ≤ w.maxCallDepth)
    (hold : ∀ a ∈ ({ w with thread := t, waiting := ts } : World (Recorded H)).attached,
      a ∈ w.attached) : Reachable natives clean { w with thread := t, waiting := ts } :=
  .passes hw ((hw.sound hnatives).passes_threads hdepth hold)

/-- A new thread runs, and the running one waits with the others. -/
theorem Reachable.spawn (hw : Reachable natives clean w) (t : ThreadId) :
    Reachable natives clean { w with thread := ⟨t, 0, none⟩, waiting := w.thread :: w.waiting } := by
  refine hw.threads hnatives (Nat.zero_le _) fun a ha => ?_
  rcases mem_attached.1 ha with ha | ⟨t', ht, ha⟩
  · cases ha
  · rcases List.mem_cons.1 ht with rfl | ht
    · exact mem_attached.2 (.inl ha)
    · exact mem_attached.2 (.inr ⟨t', ht, ha⟩)

/-- Guest code calls a native method, whose function is about to run. -/
theorem Reachable.enter (hw : Reachable natives clean w) {env : Env} {binding : Binding}
    {receiver : ObjectRef} {args : List Value} {c : NativeCall} {w' : World (Recorded H)}
    (h : prepare env binding receiver args w = .ok c w') : Reachable natives clean w' := by
  have k := Entry.entry_rules (H := Recorded H) clean (w.maxCallDepth + 1)
  have hattached : w.attachment.isSome = true := by
    obtain ⟨a, ha, -⟩ := of_prepare_ok h
    rw [ha]
    rfl
  have hobeys : Entry.Obeys (Entry.Conducted clean (w.maxCallDepth + 1))
      (prepare env binding receiver args) :=
    k.andThen (Entry.conducted_pushFrame _) fun _ => obeys_marshal k env binding receiver args
  have hprepared := hobeys w ⟨hw.sound hnatives, by omega⟩ hattached
  rw [h] at hprepared
  exact hw.calm hnatives hprepared

/-- A native method returns. -/
theorem Reachable.leave (hw : Reachable natives clean w) {result r : Except EntryError Value}
    {w' : World (Recorded H)} (h : finish result w = .returned r w') :
    Reachable natives clean w' := by
  cases ha : w.attachment with
  | none =>
    rw [finish_of_none ha] at h
    cases r <;> cases h
  | some a =>
    rw [finish_eq ha] at h
    cases hclosed : a.locals.pop? none with
    | none =>
      rw [hclosed] at h
      cases r <;> cases h
      exact hw
    | some closed =>
      rw [hclosed] at h
      dsimp only [settle] at h
      cases result with
      | error e =>
        cases r <;> cases h
        exact hw.calm hnatives (.of_attachment ha rfl (.inl rfl))
      | ok v =>
        let taken : Attachment := { a with locals := closed.2, pending := .empty }
        have htaken : w.Calm (w.setAttachment (some taken)) := .of_attachment ha rfl (.inr rfl)
        cases hslot : a.pending.slot <;> rw [hslot] at h <;> cases r <;> cases h <;>
          exact hw.calm hnatives htaken

end Sound

end Native

end GuestBoundary
