import GuestBoundary.Buffers
import Mathlib.Algebra.GroupWithZero.Nat

/-!
# What an operation does to the registry of buffers

Allocation enters a block, release removes one, and a store replaces bytes; each leaves the block
at every other address alone (`find?_enter`, `find?_remove`, `find?_store`).  `WellFormed` is what
all of them keep: no address is out twice, the counter is the sum of the lengths and within the
limit, and no released address that is remembered is out.
-/

namespace GuestBoundary

/-- A block holds as many bytes as it is long. -/
@[simp] theorem Block.length_contents (b : Block) : b.contents.length = b.length := by
  rw [Block.contents, List.length_append, List.length_take, List.length_replicate]
  omega

/-- Nothing has been written to a new block. -/
@[simp] theorem Block.contents_nil (n : Nat) :
    (⟨n, []⟩ : Block).contents = List.replicate n 0 := by
  simp [Block.contents]

/-- Bytes that fill a block are what it holds. -/
theorem Block.contents_of_length {n : Nat} {bytes : List UInt8} (h : bytes.length = n) :
    (⟨n, bytes⟩ : Block).contents = bytes := by
  simp [Block.contents, ← h]

namespace Buffers

variable {r r' : Buffers} {a b : Address} {n : Nat} {bytes : List UInt8} {host : Option Address}

/-- The addresses of the blocks that are out. -/
def addresses (r : Buffers) : List Address := r.blocks.map Prod.fst

/-- The sum of the lengths of the blocks that are out. -/
def total (r : Buffers) : Nat := (r.blocks.map fun entry => entry.2.length).sum

/-- Whether a block of some length is within the budget. -/
def Affords (r : Buffers) (n : Nat) : Prop := min (r.inUse + n) wordLimit ≤ r.limit

instance (r : Buffers) (n : Nat) : Decidable (r.Affords n) :=
  inferInstanceAs (Decidable (_ ≤ _))

/-- The registry with one more block. -/
def enter (r : Buffers) (a : Address) (block : Block) : Buffers :=
  { r with
    blocks := (a, block) :: r.blocks
    released := r.released.filter (· ≠ a)
    inUse := r.inUse + block.length }

/-- The registry without a block of `n` bytes. -/
def remove (r : Buffers) (a : Address) (n : Nat) : Buffers :=
  { r with
    blocks := r.blocks.filter fun entry => entry.1 ≠ a
    released := a :: if r.released.length ≥ historyLimit then [] else r.released
    inUse := r.inUse - n }

theorem lookup_cons (entry : Address × Block) (blocks : List (Address × Block)) (a : Address) :
    (entry :: blocks).lookup a = if a = entry.1 then some entry.2 else blocks.lookup a := by
  rw [List.lookup_cons]
  by_cases h : a = entry.1
  · rw [if_pos h, h, beq_self_eq_true]
  · rw [if_neg h, beq_false_of_ne h]

theorem find?_eq_none_iff : r.find? a = none ↔ a ∉ r.addresses := by
  rw [find?, List.lookup_eq_none_iff, addresses, List.mem_map]
  constructor
  · rintro h ⟨entry, hm, rfl⟩
    simpa using h entry hm
  · intro h entry hm
    exact bne_iff_ne.2 fun e => h ⟨entry, hm, e.symm⟩

theorem mem_addresses_of_find? {block : Block} (hf : r.find? a = some block) :
    a ∈ r.addresses := by
  refine Decidable.byContradiction fun h => ?_
  rw [find?_eq_none_iff.2 h] at hf
  cases hf

/-! ## The operations in terms of what they change -/

theorem allocate_eq (r : Buffers) (n : Nat) (host : Option Address) :
    r.allocate n host =
      if r.Affords n then
        match host with
        | some a => .ok (r.enter a ⟨n, []⟩)
        | none => .error (.outOfMemory n)
      else .error (.bufferLimit n r.inUse r.limit) := by
  unfold allocate
  by_cases h : r.Affords n
  · rw [if_neg (Nat.not_lt.2 h), if_pos h]
    cases host <;> rfl
  · rw [if_pos (Nat.not_le.1 h), if_neg h]

theorem allocateFrom_eq (r : Buffers) (bytes : List UInt8) (host : Option Address) :
    r.allocateFrom bytes host =
      if r.Affords bytes.length then
        match host with
        | some a => .ok ((r.enter a ⟨bytes.length, []⟩).store a bytes)
        | none => .error (.outOfMemory bytes.length)
      else .error (.bufferLimit bytes.length r.inUse r.limit) := by
  unfold allocateFrom
  rw [allocate_eq]
  by_cases h : r.Affords bytes.length
  · rw [if_pos h, if_pos h]
    cases host <;> rfl
  · rw [if_neg h, if_neg h]

theorem release_eq (r : Buffers) (a : Address) :
    r.release a =
      match r.find? a with
      | some block => .ok (block.length, r.remove a block.length)
      | none => .error (r.missing a) := rfl

/-! ## Which block is where -/

theorem find?_enter (r : Buffers) (a b : Address) (block : Block) :
    (r.enter a block).find? b = if b = a then some block else r.find? b := by
  rw [find?, enter, lookup_cons]
  rfl

theorem find?_remove (r : Buffers) (a b : Address) (n : Nat) :
    (r.remove a n).find? b = if b = a then none else r.find? b := by
  unfold find? remove
  induction r.blocks with
  | nil => simp
  | cons entry blocks ih =>
    by_cases he : entry.1 = a
    · rw [List.filter_cons_of_neg (by simpa using he), ih, lookup_cons, he]
      by_cases h : b = a
      · rw [if_pos h, if_pos h]
      · rw [if_neg h, if_neg h, if_neg h]
    · rw [List.filter_cons_of_pos (by simpa using he), lookup_cons, ih, lookup_cons]
      by_cases hb : b = entry.1
      · rw [if_pos hb, if_pos hb, if_neg (hb ▸ he)]
      · rw [if_neg hb, if_neg hb]

theorem find?_store (r : Buffers) (a b : Address) (bytes : List UInt8) :
    (r.store a bytes).find? b =
      if b = a then (r.find? b).map fun block => { block with written := bytes }
      else r.find? b := by
  unfold find? store
  induction r.blocks with
  | nil => simp
  | cons entry blocks ih =>
    rw [List.map_cons, lookup_cons, ih, lookup_cons]
    by_cases he : entry.1 = a
    · rw [if_pos he, he]
      by_cases h : b = a
      · rw [if_pos h, if_pos h, if_pos h]
        rfl
      · rw [if_neg h, if_neg h, if_neg h, if_neg h]
    · rw [if_neg he]
      by_cases hb : b = entry.1
      · rw [if_pos hb, if_pos hb, if_neg (hb ▸ he)]
      · rw [if_neg hb, if_neg hb]

theorem addresses_store (r : Buffers) (a : Address) (bytes : List UInt8) :
    (r.store a bytes).addresses = r.addresses := by
  unfold addresses store
  rw [List.map_map]
  refine List.map_congr_left fun entry _ => ?_
  by_cases h : entry.1 = a
  · simp [h]
  · simp [h]

theorem total_store (r : Buffers) (a : Address) (bytes : List UInt8) :
    (r.store a bytes).total = r.total := by
  unfold total store
  rw [List.map_map]
  congr 1
  refine List.map_congr_left fun entry _ => ?_
  by_cases h : entry.1 = a
  · simp [h]
  · simp [h]

/-- A new block that is filled at once holds the bytes from the start. -/
theorem store_enter (ha : a ∉ r.addresses) (bytes : List UInt8) :
    (r.enter a ⟨n, []⟩).store a bytes = r.enter a ⟨n, bytes⟩ := by
  have hrest : (r.blocks.map fun entry =>
      if entry.1 = a then (a, { entry.2 with written := bytes }) else entry) = r.blocks :=
    (List.map_congr_left fun entry hm =>
      if_neg fun (he : entry.1 = a) => ha (he ▸ List.mem_map_of_mem hm)).trans (List.map_id _)
  simp only [enter, store, List.map_cons, if_true, hrest]

theorem addresses_remove (r : Buffers) (a : Address) (n : Nat) :
    (r.remove a n).addresses = r.addresses.filter (· ≠ a) := by
  rw [addresses, addresses, List.filter_map]
  rfl

/-! ## What every operation keeps -/

/-- No block is out twice, the counter is the sum of the lengths and within the limit, and the
addresses that are remembered as released are few, different and not out. -/
structure WellFormed (r : Buffers) : Prop where
  addresses_nodup : r.addresses.Nodup
  inUse_eq : r.inUse = r.total
  inUse_le : r.inUse ≤ r.limit
  released_nodup : r.released.Nodup
  released_le : r.released.length ≤ historyLimit
  released_out : ∀ a ∈ r.released, a ∉ r.addresses

theorem wellFormed_empty (limit : Nat) : WellFormed (empty limit) where
  addresses_nodup := List.nodup_nil
  inUse_eq := rfl
  inUse_le := Nat.zero_le _
  released_nodup := List.nodup_nil
  released_le := Nat.zero_le _
  released_out := by simp [empty]

namespace WellFormed

theorem mem_blocks_iff (wf : r.WellFormed) {block : Block} :
    (a, block) ∈ r.blocks ↔ r.find? a = some block := by
  have key : ∀ blocks : List (Address × Block), (blocks.map Prod.fst).Nodup →
      ((a, block) ∈ blocks ↔ blocks.lookup a = some block) := by
    intro blocks hnd
    induction blocks with
    | nil => simp
    | cons entry blocks ih =>
      obtain ⟨hout, hnd⟩ := List.nodup_cons.1 hnd
      rw [List.mem_cons, lookup_cons]
      by_cases h : a = entry.1
      · have hm : (a, block) ∉ blocks := fun hm => hout (h ▸ List.mem_map_of_mem hm)
        rw [if_pos h, or_iff_left hm, Option.some.injEq, h, Prod.ext_iff]
        exact ⟨fun e => e.2.symm, fun e => ⟨rfl, e.symm⟩⟩
      · have he : (a, block) ≠ entry := fun e => h (congrArg Prod.fst e)
        rw [if_neg h, or_iff_right he, ih hnd]
  exact key r.blocks wf.addresses_nodup

theorem enter (wf : r.WellFormed) (ha : a ∉ r.addresses) {block : Block}
    (hn : r.inUse + block.length ≤ r.limit) : (r.enter a block).WellFormed where
  addresses_nodup := List.nodup_cons.2 ⟨ha, wf.addresses_nodup⟩
  inUse_eq := by
    show r.inUse + block.length = block.length + r.total
    rw [wf.inUse_eq, Nat.add_comm]
  inUse_le := hn
  released_nodup := wf.released_nodup.filter _
  released_le := Nat.le_trans (List.length_filter_le _ _) wf.released_le
  released_out := by
    intro b hb hout
    obtain ⟨hb, hne⟩ := List.mem_filter.1 hb
    rcases List.mem_cons.1 hout with rfl | hout
    · simp at hne
    · exact wf.released_out b hb hout

theorem store (wf : r.WellFormed) (a : Address) (bytes : List UInt8) :
    (r.store a bytes).WellFormed where
  addresses_nodup := by rw [addresses_store]; exact wf.addresses_nodup
  inUse_eq := by rw [total_store]; exact wf.inUse_eq
  inUse_le := wf.inUse_le
  released_nodup := wf.released_nodup
  released_le := wf.released_le
  released_out := by rw [addresses_store]; exact wf.released_out

/-- Removing a block takes its length off the sum. -/
theorem total_remove (wf : r.WellFormed) {block : Block} (hf : r.find? a = some block) (n : Nat) :
    (r.remove a n).total + block.length = r.total := by
  have key : ∀ blocks : List (Address × Block), (blocks.map Prod.fst).Nodup →
      blocks.lookup a = some block →
      ((blocks.filter fun entry => entry.1 ≠ a).map fun entry => entry.2.length).sum +
        block.length = (blocks.map fun entry => entry.2.length).sum := by
    intro blocks hnd hf
    induction blocks with
    | nil => cases hf
    | cons entry blocks ih =>
      obtain ⟨hout, hnd⟩ := List.nodup_cons.1 hnd
      rw [lookup_cons] at hf
      by_cases he : entry.1 = a
      · -- The address occurs only here, so the filter takes nothing off the rest.
        have hrest : (blocks.filter fun entry => entry.1 ≠ a) = blocks := by
          refine List.filter_eq_self.2 fun e hm => ?_
          simp only [decide_eq_true_eq]
          rintro rfl
          exact hout (he ▸ List.mem_map_of_mem hm)
        rw [if_pos he.symm] at hf
        rw [List.filter_cons_of_neg (by simpa using he), hrest, List.map_cons, List.sum_cons,
          Option.some.inj hf, Nat.add_comm]
      · rw [if_neg (Ne.symm he)] at hf
        rw [List.filter_cons_of_pos (by simpa using he), List.map_cons, List.map_cons,
          List.sum_cons, List.sum_cons, Nat.add_assoc, ih hnd hf]
  exact key r.blocks wf.addresses_nodup hf

theorem remove (wf : r.WellFormed) {block : Block} (hf : r.find? a = some block) :
    (r.remove a block.length).WellFormed := by
  have htotal := wf.total_remove hf block.length
  have hin := wf.inUse_eq
  have hout : a ∈ r.addresses := mem_addresses_of_find? hf
  constructor
  case addresses_nodup =>
    rw [addresses_remove]
    exact wf.addresses_nodup.filter _
  case inUse_eq =>
    show r.inUse - block.length = _
    omega
  case inUse_le => exact Nat.le_trans (Nat.sub_le _ _) wf.inUse_le
  case released_nodup =>
    refine List.nodup_cons.2 ⟨?_, ?_⟩
    · split
      · exact List.not_mem_nil
      · exact fun hm => wf.released_out a hm hout
    · split
      · exact List.nodup_nil
      · exact wf.released_nodup
  case released_le =>
    show (_ :: _).length ≤ historyLimit
    rw [List.length_cons]
    split
    · exact Nat.succ_le_of_lt (by decide)
    · omega
  case released_out =>
    intro b hb
    rw [addresses_remove, List.mem_filter]
    rintro ⟨hm, hne⟩
    rcases List.mem_cons.1 hb with rfl | hb
    · simp at hne
    · split at hb
      · cases hb
      · exact wf.released_out b hb hm

/-- A block that the budget affords fits under the limit, as long as a word counts all bytes. -/
theorem inUse_add_le (wf : r.WellFormed) (h : r.Affords n) (hw : r.total + n ≤ wordLimit) :
    r.inUse + n ≤ r.limit := by
  rw [← wf.inUse_eq] at hw
  rwa [Affords, Nat.min_eq_left hw] at h

end WellFormed

end Buffers

end GuestBoundary
