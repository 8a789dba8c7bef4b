import GuestBoundary.Proofs.Arrays.Model
import GuestBoundary.Proofs.Guest.Runs
import GuestBoundary.Proofs.Heap.Slots

/-!
# Buffers that are written back

A release hands over an array and a buffer, and nothing but the write itself holds one against the
other.  The write takes whole elements as long as there are not too many, so a buffer that is too
short is written over the front of the array where it should be turned down
(`releases_write_what_fits`).  A buffer that is written or turned down in mode 0 is gone either way.
-/

namespace GuestBoundary

variable {H : Type}

namespace World

theorem size_setMessage (w : World H) (o : ObjectRef) (v : Value) :
    (w.setMessage o v).heap.size = w.heap.size := by
  unfold setMessage
  cases h : (w.registry.findField? (w.classOf o) messageField messageDescriptor).bind fun f =>
      w.setField? o f v with
  | none => rfl
  | some w' =>
    obtain ⟨f, -, h⟩ := Option.bind_eq_some_iff.1 h
    obtain ⟨object, -, rfl⟩ := Option.map_eq_some_iff.1 h
    exact Heap.size_set ..

/-- A throwable and its message are made. -/
theorem size_raised (w : World H) (f : GuestFault) :
    (w.raised f).heap.size = w.heap.size + 2 := by
  show (World.setMessage _ _ _).heap.size = _
  rw [size_setMessage]
  exact (Heap.size_push _ _).trans (congrArg (· + 1) (Heap.size_push _ _))

end World

namespace Arrays

open Interface

/-! ## Bytes that are written -/

section Bytes

variable {p : Primitive} {old bytes : List UInt8}

/-- How many bytes the elements of an array take. -/
def byteLength (p : Primitive) (old : List UInt8) : Nat := (Elements.primitive p old).size * p.width

/-- The bytes are whole elements, no more of them than the array has. -/
def Within (p : Primitive) (old bytes : List UInt8) : Prop :=
  p.width ∣ bytes.length ∧ bytes.length ≤ byteLength p old

instance : Decidable (Within p old bytes) := inferInstanceAs (Decidable (_ ∧ _))

/-- Counted in elements. -/
theorem within_iff : Within p old bytes ↔
    bytes.length % p.width = 0 ∧ 0 + bytes.length / p.width ≤ (Elements.primitive p old).size := by
  rw [Within, Nat.dvd_iff_mod_eq_zero, Nat.zero_add]
  refine and_congr_right fun hwhole => ?_
  have hbytes : bytes.length / p.width * p.width = bytes.length :=
    Nat.div_mul_cancel (Nat.dvd_of_mod_eq_zero hwhole)
  rw [byteLength, ← hbytes, Nat.mul_le_mul_right_iff p.width_pos,
    Nat.mul_div_cancel _ p.width_pos]

theorem write?_front : (Elements.primitive p old).write? 0 bytes =
    if Within p old bytes then some (.primitive p (bytes ++ old.drop bytes.length)) else none := by
  have hsplice : Elements.splice old (0 * p.width) bytes = bytes ++ old.drop bytes.length := by
    rw [Elements.splice, Nat.zero_mul, List.take_zero, List.nil_append, Nat.zero_add]
  rw [← hsplice]
  exact if_congr within_iff.symm rfl rfl

/-- Bytes of the right length are within the array. -/
theorem within_of_length (h : bytes.length = byteLength p old) : Within p old bytes :=
  ⟨h ▸ Nat.dvd_mul_left _ _, Nat.le_of_eq h⟩

end Bytes

/-! ## Releases -/

section Release

variable {w : World H} {h : Handle} {a : Address} {o : ObjectRef} {p : Primitive}
  {old bytes : List UInt8} {expected : Option Primitive} {b : Bridge} {block : Block}
  {mode : ReleaseMode}

/-- The functions are for arrays of this type. -/
def Accepts (expected : Option Primitive) (p : Primitive) : Prop :=
  (expected.all fun q => q == p) = true

instance : Decidable (Accepts expected p) := inferInstanceAs (Decidable (_ = true))

/-- Why the bytes of a buffer do not go back into an array. -/
def refusal (w : World H) (o : ObjectRef) (expected : Option Primitive) (p : Primitive)
    (old bytes : List UInt8) : GuestFault :=
  ⟨.illegalArgument,
    if Accepts expected p then
      toString bytes.length ++ " byte buffer does not match a " ++
        toString (Elements.primitive p old).size ++ "-element array"
    else
      w.dottedName o ++ " is not a " ++ ((expected.map Primitive.keyword).getD "primitive") ++
        " array"⟩

theorem primitiveArrayOf_refused (hh : w.resolve h = some o)
    (ho : (w.object o).elements? = some (.primitive p old)) (hp : ¬ Accepts expected p) :
    primitiveArrayOf expected h w = .error (.fault (refusal w o expected p old bytes)) w := by
  have harray : arrayOf h w = .ok (o, .primitive p old) w := by
    rw [arrayOf, Action.bind_ok (Entry.require_some hh), Action.bind_ok Entry.world_eq, ho]
    rfl
  rw [primitiveArrayOf, Action.bind_ok harray, refusal, if_neg hp]
  refine (congrFun (if_neg hp) w).trans ?_
  cases expected <;> rfl

theorem copyBack_within (hh : w.resolve h = some o)
    (ho : (w.object o).elements? = some (.primitive p old)) (hp : Accepts expected p)
    (hbytes : Within p old bytes) :
    copyBack expected h bytes w = .ok () (w.setBytes o p (bytes ++ old.drop bytes.length)) := by
  rw [copyBack, Action.bind_ok (primitiveArrayOf_ok hh ho hp)]
  simp only [write?_front, if_pos hbytes]
  rfl

theorem copyBack_refused (hh : w.resolve h = some o)
    (ho : (w.object o).elements? = some (.primitive p old))
    (hnot : ¬ (Accepts expected p ∧ Within p old bytes)) :
    copyBack expected h bytes w = .error (.fault (refusal w o expected p old bytes)) w := by
  by_cases hp : Accepts expected p
  · rw [copyBack, Action.bind_ok (primitiveArrayOf_ok hh ho hp), refusal, if_pos hp]
    simp only [write?_front, if_neg fun hbytes => hnot ⟨hp, hbytes⟩]
    rfl
  · rw [copyBack, Action.bind_error (primitiveArrayOf_refused hh ho hp)]

/-- The state after the block at an address was taken back, if the mode says so. -/
def settled (w : World H) (b : Bridge) (a : Address) (n : Nat) (mode : ReleaseMode) : World H :=
  if mode.frees then { w with bridge := some { b with buffers := b.buffers.remove a n } } else w

/-- A release that copies back does what the copy does, and then takes the block back. -/
theorem releaseElements_eq {copied : Except EntryError Unit} {w₁ : World H}
    (hmode : mode.copiesBack = true) (hb : w.bridge = some b) (hb₁ : w₁.bridge = some b)
    (hblock : b.buffers.find? a = some block)
    (hcopy : ((copyBack expected h block.contents).result : Entry H _) w = .ok copied w₁) :
    releaseElements expected h a mode.code w =
      (Action.ofExcept copied : Entry H Unit) (settled w₁ b a block.contents.length mode) := by
  have hcontents : Entry.bufferContents a w = .ok block.contents w :=
    bufferContents_ok hb (by rw [Buffers.contents, hblock])
  cases mode with
  | finish =>
    have hrelease : b.buffers.release a =
        .ok (block.length, b.buffers.remove a block.contents.length) := by
      rw [Buffers.release_eq, hblock, Block.length_contents]
    rw [releaseElements_finish, Action.bind_ok hcontents, Action.bind_ok hcopy,
      Action.bind_ok (Entry.releaseBuffer_ok hb₁ hrelease)]
    rfl
  | commit =>
    rw [releaseElements_commit, Action.bind_ok hcontents, Action.bind_ok hcopy]
    rfl
  | abort => cases hmode

end Release

/-! ## What a release does to the array -/

section Outcome

variable {w w' w'' : World H} {o : ObjectRef} {p : Primitive} {old bytes : List UInt8}

/-- The bytes were put over the front of an array, and nothing was raised. -/
structure Overwritten (w w' : World H) (o : ObjectRef) (p : Primitive) (old bytes : List UInt8) :
    Prop where
  elements : (w'.object o).elements? = some (.primitive p (bytes ++ old.drop bytes.length))
  others : ∀ o', o' ≠ o → w'.object o' = w.object o'
  size : w'.heap.size = w.heap.size
  pending : w'.pending = w.pending

/-- No object was written, and a new `IllegalArgumentException` is pending. -/
structure TurnedDown (w w' : World H) : Prop where
  objects : ∀ o, o.index < w.heap.size → w'.object o = w.object o
  raised : ∃ t, w'.pending = some t ∧ w.heap.size ≤ t.index ∧ t.index < w'.heap.size ∧
    w'.className t = FaultKind.illegalArgument.className

theorem not_turnedDown_of_overwritten (hw : Overwritten w w' o p old bytes) :
    ¬ TurnedDown w w' := by
  rintro ⟨-, t, -, hold, hnew, -⟩
  rw [hw.size] at hnew
  exact absurd hnew (Nat.not_lt.2 hold)

theorem overwritten_setBytes (ho : (w.object o).elements? = some (.primitive p old)) :
    Overwritten w (w.setBytes o p (bytes ++ old.drop bytes.length)) o p old bytes where
  elements := by
    have hlt : o.index < w.heap.size := World.lt_size_of_body_ne (by
      rw [World.body_of_elements? ho]
      nofun)
    exact congrArg Object.elements? (World.object_setObject_self hlt _)
  others := fun o' hne => World.object_setObject_of_ne hne.symm _
  size := Heap.size_set ..
  pending := rfl

theorem Overwritten.settled (hw : Overwritten w w' o p old bytes) (b : Bridge) (a : Address)
    (n : Nat) (mode : ReleaseMode) : Overwritten w (settled w' b a n mode) o p old bytes := by
  unfold Arrays.settled
  split
  · exact ⟨hw.elements, hw.others, hw.size, hw.pending⟩
  · exact hw

theorem turnedDown_raised (ha : w.attachment.isSome = true) (hr : w.registry.Reachable)
    (message : String) : TurnedDown w (w.raised ⟨.illegalArgument, message⟩) where
  objects := fun o ho => (World.untouched_raised w _).object ho
  raised := by
    obtain ⟨c, hfind, -⟩ := hr.messageSlot .illegalArgument
    refine ⟨⟨w.heap.size⟩, World.pending_raised ha _, Nat.le_refl _, ?_, ?_⟩
    · rw [World.size_raised]
      exact Nat.lt_add_of_pos_right (by decide)
    · exact World.className_materialize (f := ⟨.illegalArgument, message⟩) hfind

end Outcome

/-- What should come of a release: the array is written just if the buffer has its length. -/
def Matched (w w' : World H) (o : ObjectRef) (p : Primitive) (old bytes : List UInt8) : Prop :=
  if bytes.length = byteLength p old then Overwritten w w' o p old bytes else TurnedDown w w'

/-- What comes of a release that copies back, of a block with some bytes and an array. -/
structure Released (w w' : World H) (b : Bridge) (a : Address) (expected : Option Primitive)
    (o : ObjectRef) (p : Primitive) (old bytes : List UInt8) (mode : ReleaseMode) : Prop where
  /-- The block is gone if the mode says so, and no other one is. -/
  buffers : w'.bridge.map Bridge.buffers =
    some (if mode.frees then b.buffers.remove a bytes.length else b.buffers)
  /-- Whole elements, not too many, are put over the front of the array. -/
  written : Accepts expected p → Within p old bytes → Overwritten w w' o p old bytes
  /-- All other bytes are turned down, and so is an array of another type. -/
  refused : ¬ (Accepts expected p ∧ Within p old bytes) → TurnedDown w w' ∧
    w' = (settled w b a bytes.length mode).raised (refusal w o expected p old bytes)
  /-- So the release is not what it should be just for whole elements that are too few. -/
  matched : Accepts expected p → (Matched w w' o p old bytes ↔
    ¬ (p.width ∣ bytes.length ∧ bytes.length < byteLength p old))

section Call

variable {w : World H} {h : Handle} {a : Address} {o : ObjectRef} {p : Primitive}
  {old bytes : List UInt8} {expected : Option Primitive} {b : Bridge} {block : Block}
  {mode : ReleaseMode}

/-- A release that does what it has to do with all bytes is what it should be, but for whole
elements that are too few. -/
theorem matched_iff {w' : World H} (hwritten : Within p old bytes → Overwritten w w' o p old bytes)
    (hrefused : ¬ Within p old bytes → TurnedDown w w') :
    Matched w w' o p old bytes ↔ ¬ (p.width ∣ bytes.length ∧ bytes.length < byteLength p old) := by
  unfold Matched
  by_cases hlength : bytes.length = byteLength p old
  · rw [if_pos hlength]
    exact iff_of_true (hwritten (within_of_length hlength)) fun hshort =>
      absurd hlength (Nat.ne_of_lt hshort.2)
  · rw [if_neg hlength]
    by_cases hbytes : Within p old bytes
    · have hshort : bytes.length < byteLength p old := Nat.lt_of_le_of_ne hbytes.2 hlength
      exact iff_of_false (not_turnedDown_of_overwritten (hwritten hbytes))
        (not_not_intro ⟨hbytes.1, hshort⟩)
    · exact iff_of_true (hrefused hbytes) fun hshort =>
        hbytes ⟨hshort.1, Nat.le_of_lt hshort.2⟩

theorem buffers_settled (hb : w.bridge = some b) (n : Nat) :
    (settled w b a n mode).bridge.map Bridge.buffers =
      some (if mode.frees then b.buffers.remove a n else b.buffers) := by
  unfold settled
  split
  · rfl
  · exact congrArg (Option.map Bridge.buffers) hb

/-- What is turned down once the block is taken back is turned down. -/
theorem turnedDown_settled (ha : w.attachment.isSome = true) (hr : w.registry.Reachable)
    (b : Bridge) (a : Address) (n : Nat) (mode : ReleaseMode) (message : String) :
    TurnedDown w ((settled w b a n mode).raised ⟨.illegalArgument, message⟩) := by
  unfold settled
  split
  · obtain ⟨hobjects, hraised⟩ :=
      turnedDown_raised (w := { w with bridge := some { b with buffers := b.buffers.remove a n } })
        ha hr message
    exact ⟨hobjects, hraised⟩
  · exact turnedDown_raised ha hr message

section Outcomes

variable (call : Invoker H) (attached : w.attachment.isSome = true) (hb : w.bridge = some b)
  (hh : w.resolve h = some o) (ho : (w.object o).elements? = some (.primitive p old))
  (hblock : b.buffers.find? a = some block) (route : Route) (type : Primitive)
  (hmode : mode.copiesBack = true)
include attached hb hh ho hblock hmode

theorem release_within (hp : Accepts (route.expected type) p)
    (hbytes : Within p old block.contents) :
    (callFunction call (ownEnv w) (route.releaser type)
        [.handle h, .buffer a, .primitive (.int mode.code)] w : Outcome H Empty Answer) =
      .ok (.plain .nothing) (settled
        (w.setBytes o p (block.contents ++ old.drop block.contents.length)) b a
          block.contents.length mode) := by
  have hcopy := Action.result_ok (δ := EntryError) (copyBack_within hh ho hp hbytes)
  have hrelease := releaseElements_eq hmode hb (by exact hb) hblock hcopy
  refine callFunction_done attached ?_
  rw [Route.perform_releaser]
  exact Action.bind_ok hrelease

theorem release_refused (hnot : ¬ (Accepts (route.expected type) p ∧ Within p old block.contents)) :
    (callFunction call (ownEnv w) (route.releaser type)
        [.handle h, .buffer a, .primitive (.int mode.code)] w : Outcome H Empty Answer) =
      .ok (.plain .nothing) ((settled w b a block.contents.length mode).raised
        (refusal w o (route.expected type) p old block.contents)) := by
  have hcopy := Action.result_error (δ := EntryError) (copyBack_refused hh ho hnot)
  have hrelease := releaseElements_eq hmode hb hb hblock hcopy
  have hbody : perform call (route.releaser type)
      [.handle h, .buffer a, .primitive (.int mode.code)] w =
        .error (.fault (refusal w o (route.expected type) p old block.contents))
          (settled w b a block.contents.length mode) := by
    rw [Route.perform_releaser]
    exact Action.bind_error hrelease
  have hfailure : (route.releaser type).failure = .nothing := by cases route <;> rfl
  rw [callFunction_fails attached rfl hbody, hfailure]

/-- Whatever buffer is released into whatever primitive array, through the functions of whatever
type: it is written over the front of the array if it holds whole elements and not too many, and
otherwise turned down.  It need not have the length of the array. -/
theorem releases_write_what_fits (reachable : w.registry.Reachable) :
    ∃ w', (callFunction call (ownEnv w) (route.releaser type)
        [.handle h, .buffer a, .primitive (.int mode.code)] w : Outcome H Empty Answer) =
      .ok (.plain .nothing) w' ∧
      Released w w' b a (route.expected type) o p old block.contents mode := by
  by_cases hfits : Accepts (route.expected type) p ∧ Within p old block.contents
  · have hover : Overwritten w (settled
        (w.setBytes o p (block.contents ++ old.drop block.contents.length)) b a
        block.contents.length mode) o p old block.contents :=
      (overwritten_setBytes ho).settled b a block.contents.length mode
    refine ⟨_, release_within call attached hb hh ho hblock route type hmode hfits.1 hfits.2, ?_,
      fun _ _ => hover, fun hnot => absurd hfits hnot, fun _ => ?_⟩
    · exact buffers_settled
        (w := w.setBytes o p (block.contents ++ old.drop block.contents.length)) hb _
    · exact matched_iff (fun _ => hover) fun hnot => absurd hfits.2 hnot
  · have hdown := turnedDown_settled attached reachable b a block.contents.length mode
      (refusal w o (route.expected type) p old block.contents).message
    refine ⟨_, release_refused call attached hb hh ho hblock route type hmode hfits, ?_,
      fun hp hbytes => absurd ⟨hp, hbytes⟩ hfits, fun _ => ⟨hdown, rfl⟩, fun hp => ?_⟩
    · rw [(World.untouched_raised _ _).buffers]
      exact buffers_settled hb _
    · exact matched_iff (fun hbytes => absurd ⟨hp, hbytes⟩ hfits) fun _ => hdown

end Outcomes

end Call

/-- The buffer at 16 has room for one number. -/
def shortBridge : Bridge :=
  { Bridge.empty .default with buffers := ⟨[(16, ⟨2, [7, 0]⟩)], [], 2, 64⟩ }

/-- A thread with a reference to an array of two numbers that was handed that buffer. -/
def shortHolder : World Unit :=
  { arrayHolder with registry := .basic, bridge := some shortBridge }

/-- The buffer is released into the array. -/
def shortRelease : Outcome Unit Empty Answer :=
  callFunction (fun _ _ _ => Action.halt .outOfFuel) (ownEnv shortHolder)
    (Route.releaser .short .typed)
    [.handle arrayHandle, .buffer 16, .primitive (.int ReleaseMode.finish.code)] shortHolder

theorem short_buffer_released : ∃ w', shortRelease = .ok (.plain .nothing) w' ∧
    Released shortHolder w' shortBridge 16 (some .short) ⟨0⟩ .short [1, 0, 2, 0] [7, 0] .finish := by
  have hresolve : shortHolder.resolve arrayHandle = some ⟨0⟩ := rfl
  have hblock : shortBridge.buffers.find? 16 = some ⟨2, [7, 0]⟩ := rfl
  have hmode : ReleaseMode.finish.copiesBack = true := rfl
  exact releases_write_what_fits _ rfl rfl hresolve rfl hblock .typed .short hmode .basic

/-- The buffer is two bytes long and the array four; the first number is written, and nothing is
raised. -/
theorem short_buffer_is_written : ∃ w', shortRelease = .ok (.plain .nothing) w' ∧
    ¬ Matched shortHolder w' ⟨0⟩ .short [1, 0, 2, 0] [7, 0] ∧
    (w'.object ⟨0⟩).elements? = some (.primitive .short [7, 0, 2, 0]) ∧ w'.pending = none := by
  have hresolve : shortHolder.resolve arrayHandle = some ⟨0⟩ := rfl
  have harray : (shortHolder.object ⟨0⟩).elements? = some (.primitive .short [1, 0, 2, 0]) := rfl
  have hblock : shortBridge.buffers.find? 16 = some ⟨2, [7, 0]⟩ := rfl
  have hmode : ReleaseMode.finish.copiesBack = true := rfl
  have hrun : shortRelease = .ok (.plain .nothing) _ :=
    release_within _ rfl rfl hresolve harray hblock .typed .short hmode rfl (by decide)
  have hover : Overwritten shortHolder (settled (shortHolder.setBytes _ _ ([7, 0] ++ _)) _ _ _ _)
      ⟨0⟩ .short [1, 0, 2, 0] [7, 0] :=
    (overwritten_setBytes harray).settled shortBridge 16 2 .finish
  refine ⟨_, hrun, ?_, hover.elements, hover.pending⟩
  rw [Matched, if_neg (by decide)]
  exact not_turnedDown_of_overwritten hover

end Arrays

end GuestBoundary
