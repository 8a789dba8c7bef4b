import GuestBoundary.Proofs.Buffers.Table
import GuestBoundary.Proofs.Interface.Failures

/-!
# What the functions of primitive arrays come to

On an attached thread, with a handle that stands for a primitive array of the wanted type, each
function comes to one outcome that can be said in terms of the bytes of the array and the blocks of
the registry: a copy is a new block or there is no room for it, a region is within the array or the
function raises, and a release puts the bytes of a block back, takes the block back, or both.
-/

namespace GuestBoundary

variable {H ε : Type}

namespace Elements

variable {bytes new : List UInt8} {start n : Nat} {p : Primitive}

theorem length_splice (h : start + new.length ≤ bytes.length) :
    (splice bytes start new).length = bytes.length := by
  rw [splice, List.length_append, List.length_append, List.length_take, List.length_drop]
  omega

/-- Bytes that are put back where they were. -/
theorem splice_self (h : start + n ≤ bytes.length) :
    splice bytes start ((bytes.drop start).take n) = bytes := by
  have hlength : ((bytes.drop start).take n).length = n := by
    rw [List.length_take, List.length_drop]
    omega
  rw [splice, hlength, ← List.drop_drop, List.append_assoc, List.take_append_drop,
    List.take_append_drop]

theorem splice_whole (h : new.length = bytes.length) : splice bytes 0 new = new := by
  rw [splice, List.take_zero, List.nil_append, Nat.zero_add, h, List.drop_length, List.append_nil]

theorem write?_of_le (hwhole : new.length = n * p.width)
    (h : start + n ≤ (primitive p bytes).size) :
    (primitive p bytes).write? start new = some (primitive p (splice bytes (start * p.width) new)) := by
  have hwidth := p.width_pos
  refine if_pos ⟨?_, ?_⟩
  · rw [hwhole, Nat.mul_mod_left]
  · rwa [hwhole, Nat.mul_div_cancel _ hwidth]

/-- Elements that are in the array are in its bytes. -/
theorem mul_le_of_le_size (h : n ≤ (primitive p bytes).size) : n * p.width ≤ bytes.length :=
  Nat.le_trans (Nat.mul_le_mul_right _ h) (Nat.div_mul_le_self _ _)

end Elements

namespace World

/-- The bytes of an array are replaced. -/
def setBytes (w : World H) (o : ObjectRef) (p : Primitive) (bytes : List UInt8) : World H :=
  w.setObject o { w.object o with body := .array (.primitive p bytes) }

/-- One more block is out, which the host has put somewhere and which holds some bytes. -/
def withBlock (w : World H) (b : Bridge) (a : Address) (bytes : List UInt8) : World H :=
  { w with
    bridge := some { b with buffers := b.buffers.enter a ⟨bytes.length, bytes⟩ }
    blocks := w.blocks + 1 }

/-- What an object is whose elements are known. -/
theorem body_of_elements? {object : Object} {e : Elements} (h : object.elements? = some e) :
    object.body = .array e := by
  unfold Object.elements? at h
  split at h
  · rename_i hbody
    cases h
    exact hbody
  · cases h

theorem setBytes_self {w : World H} {o : ObjectRef} {p : Primitive} {bytes : List UInt8}
    (ho : (w.object o).elements? = some (.primitive p bytes)) : w.setBytes o p bytes = w := by
  have hobject : { w.object o with body := .array (.primitive p bytes) } = w.object o := by
    rw [← body_of_elements? ho]
  rw [setBytes, hobject]
  exact congrArg (fun heap => { w with heap }) (Heap.set_get w.heap o)

end World

namespace Interface

open Entry

/-! ## Routes -/

/-- How native code gets at the elements of an array: through the functions of its type or through
the pair for all types. -/
inductive Route where
  | typed
  | critical
  deriving DecidableEq

namespace Route

variable (p : Primitive)

def getter : Route → Function
  | typed => .getArrayElements p
  | critical => .getPrimitiveArrayCritical

def releaser : Route → Function
  | typed => .releaseArrayElements p
  | critical => .releasePrimitiveArrayCritical

/-- The type that the functions insist on. -/
def expected : Route → Option Primitive
  | typed => some p
  | critical => none

theorem all_expected (route : Route) : ((route.expected p).all fun q => q == p) = true := by
  cases route with
  | typed => exact beq_self_eq_true p
  | critical => rfl

theorem perform_getter (route : Route) (call : Invoker H) (h : Handle) (flag : Bool) :
    perform call (route.getter p) [.handle h, .copyFlag flag] =
      answerCopy flag (getElements (route.expected p) h) := by
  cases route <;> rfl

theorem perform_releaser (route : Route) (call : Invoker H) (h : Handle) (a : Address)
    (mode : Int32) :
    perform call (route.releaser p) [.handle h, .buffer a, .primitive (.int mode)] =
      answerUnit (releaseElements (route.expected p) h a mode) := by
  cases route <;> rfl

theorem failure_getter (route : Route) : (route.getter p).failure = .buffer 0 := by
  cases route <;> rfl

end Route

/-! ## Operands -/

/-- A region lies within a sequence. -/
def InBounds (start count : Int32) (total : Nat) : Prop :=
  0 ≤ start.toInt ∧ 0 ≤ count.toInt ∧ start.toInt + count.toInt ≤ total

instance (start count : Int32) (total : Nat) : Decidable (InBounds start count total) :=
  inferInstanceAs (Decidable (_ ∧ _))

theorem InBounds.add_le {start count : Int32} {total : Nat} (h : InBounds start count total) :
    start.toInt.toNat + count.toInt.toNat ≤ total := by
  obtain ⟨hstart, hcount, hle⟩ := h
  omega

section Operands

variable {w : World H} {h : Handle} {o : ObjectRef} {p : Primitive} {bytes : List UInt8}
  {expected : Option Primitive} {b : Bridge}

theorem region_in {start count : Int32} {total : Nat} (hin : InBounds start count total)
    (kind : FaultKind) :
    region start count total kind w = .ok (start.toInt.toNat, count.toInt.toNat) w := by
  unfold region
  exact congrFun (if_pos hin) w

theorem region_out {start count : Int32} {total : Nat} (hout : ¬ InBounds start count total)
    (kind : FaultKind) :
    ∃ message, region start count total kind w = .error (.fault ⟨kind, message⟩) w := by
  unfold region
  exact ⟨_, congrFun (if_neg hout) w⟩

theorem primitiveArrayOf_ok (hh : w.resolve h = some o)
    (ho : (w.object o).elements? = some (.primitive p bytes))
    (hp : (expected.all fun q => q == p) = true) :
    primitiveArrayOf expected h w = .ok (o, p, bytes) w := by
  have harray : arrayOf h w = .ok (o, .primitive p bytes) w := by
    rw [arrayOf, Action.bind_ok (require_some hh), Action.bind_ok world_eq, ho]
    rfl
  rw [primitiveArrayOf, Action.bind_ok harray]
  exact congrFun (if_pos hp) w

theorem typedArrayOf_ok (hh : w.resolve h = some o)
    (ho : (w.object o).elements? = some (.primitive p bytes)) :
    primitiveArrayOf (some p) h w = .ok (o, p, bytes) w :=
  primitiveArrayOf_ok hh ho (beq_self_eq_true p : (p == p) = true)

theorem bufferContents_ok {a : Address} (hb : w.bridge = some b)
    (ha : b.buffers.contents a = .ok bytes) : bufferContents a w = .ok bytes w := by
  rw [bufferContents, Action.bind_ok (bridge_eq hb), ha]
  rfl

theorem bufferContents_missing {a : Address} (hb : w.bridge = some b)
    (ha : a ∉ b.buffers.addresses) :
    bufferContents a w = .error (.contract (b.buffers.missing a)) w := by
  rw [bufferContents, Action.bind_ok (bridge_eq hb), Buffers.contents,
    Buffers.find?_eq_none_iff.2 ha]
  rfl

/-- A block that the host grants within the budget, where none is out, is filled. -/
theorem bufferOf_ok {a : Address} (hb : w.bridge = some b)
    (hbudget : b.buffers.Affords bytes.length) (hgrant : w.grant bytes.length = some a)
    (hfresh : a ∉ b.buffers.addresses) : bufferOf bytes w = .ok a (w.withBlock b a bytes) := by
  have hread : (Action.read (fun w => w.grant bytes.length) w : Outcome H EntryError _) =
      .ok (some a) w := congrArg (Outcome.ok · w) hgrant
  have hallocate : b.buffers.allocateFrom bytes (some a) =
      .ok (b.buffers.enter a ⟨bytes.length, bytes⟩) := by
    rw [Buffers.allocateFrom_eq, if_pos hbudget]
    exact congrArg Except.ok (Buffers.store_enter hfresh bytes)
  unfold bufferOf
  rw [Action.bind_ok hread, Action.bind_ok (onBridge_ok hb (by rw [hallocate]))]
  rfl

/-- No block comes of it if the budget or the host does not allow for one. -/
theorem bufferOf_full (hb : w.bridge = some b)
    (h : b.buffers.Affords bytes.length → w.grant bytes.length = none) :
    ∃ e, bufferOf bytes w = .error (.alloc e) w := by
  obtain ⟨e, hallocate⟩ : ∃ e, b.buffers.allocateFrom bytes (w.grant bytes.length) = .error e := by
    rw [Buffers.allocateFrom_eq]
    by_cases hbudget : b.buffers.Affords bytes.length
    · rw [if_pos hbudget, h hbudget]
      exact ⟨_, rfl⟩
    · rw [if_neg hbudget]
      exact ⟨_, rfl⟩
  have hread : (Action.read (fun w => w.grant bytes.length) w : Outcome H EntryError _) =
      .ok (w.grant bytes.length) w := rfl
  unfold bufferOf
  rw [Action.bind_ok hread, Action.bind_error (onBridge_error hb (by rw [hallocate]))]
  exact ⟨e, rfl⟩

/-! ## Copies -/

theorem getElements_eq (hh : w.resolve h = some o)
    (ho : (w.object o).elements? = some (.primitive p bytes))
    (hp : (expected.all fun q => q == p) = true) :
    getElements expected h w = bufferOf bytes w :=
  Action.bind_ok (primitiveArrayOf_ok hh ho hp)

/-- The bytes of a block fit the array that they came from. -/
theorem copyBack_ok {old : List UInt8} (hh : w.resolve h = some o)
    (ho : (w.object o).elements? = some (.primitive p old))
    (hp : (expected.all fun q => q == p) = true) (hwhole : p.width ∣ old.length)
    (hlength : bytes.length = old.length) :
    copyBack expected h bytes w = .ok () (w.setBytes o p bytes) := by
  obtain ⟨n, hn⟩ := hwhole
  have hbytes : bytes.length = n * p.width := by rw [hlength, hn, Nat.mul_comm]
  have hsize : (Elements.primitive p old).size = n := by
    rw [Elements.size, hn, Nat.mul_div_cancel_left _ p.width_pos]
  have hwrite : (Elements.primitive p old).write? 0 bytes = some (.primitive p bytes) := by
    rw [Elements.write?_of_le hbytes (by omega), Nat.zero_mul, Elements.splice_whole hlength]
  rw [copyBack, Action.bind_ok (primitiveArrayOf_ok hh ho hp)]
  simp only [hwrite]
  rfl

/-! ## Regions -/

theorem front_of_le {source : List UInt8} {n : Nat} (h : n ≤ source.length) :
    front source n = source.take n := by
  rw [front, Nat.sub_eq_zero_of_le h, List.replicate_zero, List.append_nil]

section Region

variable {start count : Int32}

theorem getArrayRegion_in (hh : w.resolve h = some o)
    (ho : (w.object o).elements? = some (.primitive p bytes))
    (hin : InBounds start count (bytes.length / p.width)) :
    getArrayRegion p h start count true w =
      .ok ((bytes.drop (start.toInt.toNat * p.width)).take (count.toInt.toNat * p.width)) w := by
  have hread : (Elements.primitive p bytes).read? start.toInt.toNat count.toInt.toNat =
      some ((bytes.drop (start.toInt.toNat * p.width)).take (count.toInt.toNat * p.width)) :=
    if_pos hin.add_le
  have hregion := region_in (w := w) hin .arrayIndexOutOfBounds
  rw [getArrayRegion, Action.bind_ok (typedArrayOf_ok hh ho)]
  refine (Action.bind_ok hregion).trans ?_
  dsimp only
  split
  next hzero =>
    rw [hzero, Nat.zero_mul, List.take_zero]
    rfl
  next =>
    rw [if_pos rfl, hread]
    rfl

theorem getArrayRegion_out (hh : w.resolve h = some o)
    (ho : (w.object o).elements? = some (.primitive p bytes))
    (hout : ¬ InBounds start count (bytes.length / p.width)) (present : Bool) :
    ∃ f, getArrayRegion p h start count present w = .error (.fault f) w := by
  obtain ⟨message, hregion⟩ := region_out (w := w) hout .arrayIndexOutOfBounds
  rw [getArrayRegion, Action.bind_ok (typedArrayOf_ok hh ho)]
  exact ⟨_, Action.bind_error hregion⟩

theorem setArrayRegion_in {source : List UInt8} (hh : w.resolve h = some o)
    (ho : (w.object o).elements? = some (.primitive p bytes))
    (hin : InBounds start count (bytes.length / p.width))
    (hsource : count.toInt.toNat * p.width ≤ source.length) :
    setArrayRegion p h start count (some source) w =
      .ok () (w.setBytes o p (Elements.splice bytes (start.toInt.toNat * p.width)
        (source.take (count.toInt.toNat * p.width)))) := by
  have hnew : (source.take (count.toInt.toNat * p.width)).length =
      count.toInt.toNat * p.width := by
    rw [List.length_take, Nat.min_eq_left hsource]
  have hwrite := Elements.write?_of_le hnew hin.add_le
  have hregion := region_in (w := w) hin .arrayIndexOutOfBounds
  rw [setArrayRegion, Action.bind_ok (typedArrayOf_ok hh ho)]
  refine (Action.bind_ok hregion).trans ?_
  dsimp only
  split
  next hzero =>
    rw [hzero, Nat.zero_mul, List.take_zero, Elements.splice, List.append_nil, List.length_nil,
      Nat.add_zero, List.take_append_drop, World.setBytes_self ho]
    rfl
  next =>
    rw [front_of_le hsource]
    simp only [hwrite]
    rfl

theorem setArrayRegion_out (hh : w.resolve h = some o)
    (ho : (w.object o).elements? = some (.primitive p bytes))
    (hout : ¬ InBounds start count (bytes.length / p.width)) (source : Option (List UInt8)) :
    ∃ f, setArrayRegion p h start count source w = .error (.fault f) w := by
  obtain ⟨message, hregion⟩ := region_out (w := w) hout .arrayIndexOutOfBounds
  rw [setArrayRegion, Action.bind_ok (typedArrayOf_ok hh ho)]
  exact ⟨_, Action.bind_error hregion⟩

end Region

/-! ## Releases -/

theorem releaseElements_missing {a : Address} (hb : w.bridge = some b)
    (ha : a ∉ b.buffers.addresses) (mode : ReleaseMode) :
    releaseElements expected h a mode.code w = .error (.contract (b.buffers.missing a)) w := by
  have hcontents := bufferContents_missing hb ha
  cases mode with
  | finish => rw [releaseElements_finish, Action.bind_error hcontents]
  | commit => rw [releaseElements_commit, Action.bind_error hcontents]
  | abort => rw [releaseElements_abort, Action.bind_error hcontents]

/-- The state after a release of a block that fits its array. -/
def releasedWorld (w : World H) (o : ObjectRef) (p : Primitive) (b : Bridge) (a : Address)
    (bytes : List UInt8) (mode : ReleaseMode) : World H :=
  let w := if mode.copiesBack then w.setBytes o p bytes else w
  if mode.frees then { w with bridge := some { b with buffers := b.buffers.remove a bytes.length } }
  else w

theorem releaseElements_ok {a : Address} {old : List UInt8} {block : Block}
    (hh : w.resolve h = some o) (ho : (w.object o).elements? = some (.primitive p old))
    (hp : (expected.all fun q => q == p) = true) (hwhole : p.width ∣ old.length)
    (hb : w.bridge = some b) (hblock : b.buffers.find? a = some block)
    (hlength : block.length = old.length) (mode : ReleaseMode) :
    releaseElements expected h a mode.code w =
      .ok () (releasedWorld w o p b a block.contents mode) := by
  have hcontents : bufferContents a w = .ok block.contents w :=
    bufferContents_ok hb (by rw [Buffers.contents, hblock])
  have hcopy := copyBack_ok hh ho hp hwhole ((Block.length_contents block).trans hlength)
  have hrelease : b.buffers.release a = .ok (block.length, b.buffers.remove a block.contents.length) := by
    rw [Buffers.release_eq, hblock, Block.length_contents]
  cases mode with
  | finish =>
    have hb' : (w.setBytes o p block.contents).bridge = some b := hb
    rw [releaseElements_finish, Action.bind_ok hcontents,
      Action.bind_ok (Action.result_ok hcopy), Action.bind_ok (releaseBuffer_ok hb' hrelease)]
    rfl
  | commit =>
    rw [releaseElements_commit, Action.bind_ok hcontents, Action.bind_ok (Action.result_ok hcopy)]
    rfl
  | abort =>
    rw [releaseElements_abort, Action.bind_ok hcontents,
      Action.bind_ok (releaseBuffer_ok hb hrelease)]
    rfl

end Operands

end Interface

end GuestBoundary
