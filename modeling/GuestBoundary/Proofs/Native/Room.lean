import GuestBoundary.Proofs.Locals.Room
import GuestBoundary.Proofs.Native.Marshalling

/-!
# Room for the references of native code

The frame of a native call is asked to have room for `minLocals` references, or for all arguments
if these are more.  What the call passes takes its slots out of that room, so the function finds the
rest (`room_of_native_call`): near the limit of the table it cannot make `minLocals` references.
-/

namespace GuestBoundary.Native

open Locals

variable {H : Type}

/-- What is left of the room of a frame in which `taken` references were made, where `caller` is the
table before the frame was opened. -/
structure RoomLeft (caller inside : Locals ObjectRef) (taken : Nat) : Prop where
  depth : inside.depth = caller.depth + 1
  creates : ∀ os, (∃ t, inside.createEach os = .ok t) ↔
    caller.slots.size + taken + os.length ≤ caller.limit
  reserves : inside.Reserves (caller.limit - (caller.slots.size + taken))

theorem limit_extended (t : Locals ObjectRef) (os : List ObjectRef) :
    (t.extended os).limit = t.limit := by
  induction os generalizing t with
  | nil => rfl
  | cons o os ih => exact ih _

/-- References that were made one after the other in a new frame take as many slots. -/
theorem roomLeft_extended {t : Locals ObjectRef} {n : Nat} {os : List ObjectRef}
    (e : (t.opened n).Extensible os.length) :
    RoomLeft t ((t.opened n).extended os) os.length := by
  have e' : ((t.opened n).extended os).Extensible 0 := e.extended
  have hframes : ((t.opened n).extended os).frames = (t.opened n).frames :=
    Extensible.frames_extended os
  have hspare := e'.wellFormed.card_spare_depth
  rw [e'.free, List.length_nil, Nat.zero_add, Extensible.size_extended, opened_slots] at hspare
  have hlimit : ((t.opened n).extended os).limit = t.limit := limit_extended _ _
  have hsize : t.slots.size + os.length ≤ t.limit := e.room
  constructor
  case depth => rw [depth_eq, depth_eq, hframes, opened_frames, List.length_cons]
  case creates =>
    intro ps
    rw [e'.wellFormed.createEach_eq_ok_iff, hspare, hlimit]
    omega
  case reserves =>
    apply e'.wellFormed.reserves
    rw [hspare, hlimit]

section Call

variable (env : Env) (binding : Binding) (receiver : ObjectRef) {args : List Value}
  {w w₁ : World H} {a : Attachment} {b : Bridge} {c : NativeCall}

/-- A native function that is reached has a frame for which there was room; it can make as many
references as there are slots left once its receiver and the arguments that are objects have theirs,
whatever else it does in between, and no more. -/
theorem room_of_native_call (ha : w.attachment = some a) (hlocals : a.locals.Reachable)
    (hb : w.bridge = some b) (hprepare : prepare env binding receiver args w = .ok c w₁) :
    (∀ (native : NativeCode H) (call : Invoker H),
      callBound native call env binding receiver args w =
        ((ran native call binding.signature.result c).result >>= finish) w₁) ∧
    a.locals.slots.size + frameCapacity args ≤ a.locals.limit ∧
    ∃ us a₁, List.Forall₂ (Converts b.config.conversion) (binding.signature.params.zip args) us ∧
      w₁.attachment = some a₁ ∧
      RoomLeft a.locals a₁.locals ((objectsOf us).length + 1) ∧
      ((∀ os : List ObjectRef, os.length = minLocals → ∃ t, a₁.locals.createEach os = .ok t) ↔
        a.locals.slots.size + ((objectsOf us).length + 1) + minLocals ≤ a.locals.limit) := by
  have wf := hlocals.wellFormed
  obtain ⟨a', ha', hroom, -⟩ := of_prepare_ok hprepare
  cases ha.symm.trans ha'
  refine ⟨callBound_delivered hprepare, of_decide_eq_true hroom, ?_⟩
  rcases prepare_cases env binding receiver ha wf hb hroom with
    ⟨us, hus, hok⟩ | ⟨err, os, -, herr⟩
  · rw [hok] at hprepare
    cases hprepare
    have e : (a.locals.opened (frameCapacity args)).Extensible
        (receiver :: objectsOf us).length := by
      apply (extensible_opened wf hroom).mono
      have := length_objectsOf_le us
      have hlength := hus.length_eq
      rw [List.length_zip] at hlength
      rw [List.length_cons]
      omega
    have hleft := roomLeft_extended e
    refine ⟨us, _, hus, rfl, hleft, fun hall => ?_, fun hfits os hos => ?_⟩
    · exact (hleft.creates _).1 (hall (List.replicate minLocals receiver) List.length_replicate)
    · exact (hleft.creates os).2 (hos ▸ hfits)
  · rw [herr] at hprepare
    cases hprepare

end Call

/-- A function with an object, a number and null as arguments finds room for more references. -/
theorem mixed_call_has_room : ∃ c w₁ a₁,
    prepare ⟨⟨0⟩, 0⟩ mixedBinding ⟨0⟩ [.ofObject ⟨3⟩, .int 5, .null] callerThread = .ok c w₁ ∧
      w₁.attachment = some a₁ ∧
      ∀ os : List ObjectRef, os.length = minLocals → ∃ t, a₁.locals.createEach os = .ok t := by
  obtain ⟨c, w₁, hprepare⟩ : ∃ c w₁, prepare ⟨⟨0⟩, 0⟩ mixedBinding ⟨0⟩
      [.ofObject ⟨3⟩, .int 5, .null] callerThread = .ok c w₁ := ⟨_, _, rfl⟩
  have hreachable : callerLocals.Reachable := (Locals.Reachable.empty 4096).after _
  obtain ⟨-, -, us, a₁, hus, ha₁, -, hleast⟩ := room_of_native_call _ _ _
    (a := ⟨0, callerLocals, .empty⟩) rfl hreachable rfl hprepare
  have hcount : us.length = 3 := hus.length_eq.symm
  have hobjects := length_objectsOf_le us
  have hsize : callerLocals.slots.size = 1 := rfl
  have hlimit : callerLocals.limit = 4096 := rfl
  refine ⟨c, w₁, a₁, hprepare, ha₁, hleast.2 ?_⟩
  show callerLocals.slots.size + _ + minLocals ≤ callerLocals.limit
  rw [hsize, hlimit, minLocals]
  omega

/-- A thread whose table has no more slots than every call is promised. -/
def narrowThread : World (Recorded Unit) :=
  (((World.bare World.defaultCallDepth .growing ⟨(), []⟩).install
    { Config.default with maxLocals := 16 }).attach
      (.empty { Config.default with maxLocals := 16 })).2

/-- A function without arguments makes fifteen references there, and no sixteenth. -/
theorem minLocals_not_left : ∃ c w₁ a₁,
    prepare ⟨⟨0⟩, 0⟩ plainBinding ⟨0⟩ [] narrowThread = .ok c w₁ ∧ w₁.attachment = some a₁ ∧
    (∀ os : List ObjectRef, os.length = 15 → ∃ t, a₁.locals.createEach os = .ok t) ∧
    ∀ os : List ObjectRef, os.length = minLocals → ¬ ∃ t, a₁.locals.createEach os = .ok t := by
  have e : ((Locals.empty 16 : Locals ObjectRef).opened 16).Extensible 16 :=
    (wellFormed_empty 16).extensible_opened rfl
  have hleft : RoomLeft (Locals.empty 16) (((Locals.empty 16).opened 16).extended [⟨0⟩]) 1 :=
    roomLeft_extended (e.mono (by decide))
  refine ⟨_, _, ⟨0, ((Locals.empty 16).opened 16).extended [⟨0⟩], .empty⟩, rfl, rfl,
    fun os hos => (hleft.creates os).2 ?_, fun os hos h => ?_⟩
  · rw [hos]
    exact Nat.le_refl 16
  · have hfits := (hleft.creates os).1 h
    rw [hos] at hfits
    exact absurd hfits (by decide)

end GuestBoundary.Native
