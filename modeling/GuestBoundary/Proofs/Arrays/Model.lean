import GuestBoundary.Proofs.Arrays.Access

/-!
# Primitive arrays as plain memory

Native code gets at the elements of arrays in two ways: it copies all of them into a block, which it
may write to and which it gives back in one of three modes, and it reads and writes regions.  A
`Memory` is what this should look like: every array has its bytes, and every block that is out has
its own.  `Mirrors` says that a state holds what a memory says.  Each operation takes the state to
one that mirrors the memory after it, and native code sees what the memory says (`Mirrors.step`),
so it goes on like this in every order of operations (`Reached`).
-/

namespace GuestBoundary.Arrays

open Interface

variable {H : Type}

/-! ## Operations -/

/-- What native code does with primitive arrays.  An operation on an array passes a handle, and says
which array it means. -/
inductive Op where
  /-- Gets the elements of an array in a block. -/
  | get (p : Primitive) (route : Route) (h : Handle) (o : ObjectRef) (flag : Bool)
  /-- Writes to a block. -/
  | write (a : Address) (start : Nat) (new : List UInt8)
  | getRegion (p : Primitive) (h : Handle) (o : ObjectRef) (start count : Int32)
  | setRegion (p : Primitive) (h : Handle) (o : ObjectRef) (start count : Int32)
    (source : List UInt8)
  /-- Gives a block back that was got for an array. -/
  | release (p : Primitive) (route : Route) (h : Handle) (o : ObjectRef) (a : Address)
    (mode : ReleaseMode)

/-- Native code writes to a block without asking. -/
def poke (w : World H) (a : Address) (start : Nat) (new : List UInt8) : World H :=
  { w with
    bridge := w.bridge.map fun b =>
      { b with
        buffers := b.buffers.store a
          (Elements.splice ((b.buffers.contents a).toOption.getD []) start new) } }

/-- What the function of an operation answers that raises. -/
def Op.failure : Op → Returned
  | .get .. => .buffer 0
  | _ => .nothing

/-- Runs an operation on the running thread. -/
def Op.run (call : Invoker H) (op : Op) : Action H Empty Answer := fun w =>
  match op with
  | .get p route h _ flag =>
    callFunction call (ownEnv w) (route.getter p) [.handle h, .copyFlag flag] w
  | .write a start new => .ok (.plain .nothing) (poke w a start new)
  | .getRegion p h _ start count =>
    callFunction call (ownEnv w) (.getArrayRegion p)
      [.handle h, .primitive (.int start), .primitive (.int count), .target true] w
  | .setRegion p h _ start count source =>
    callFunction call (ownEnv w) (.setArrayRegion p)
      [.handle h, .primitive (.int start), .primitive (.int count), .source (some source)] w
  | .release p route h _ a mode =>
    callFunction call (ownEnv w) (route.releaser p)
      [.handle h, .buffer a, .primitive (.int mode.code)] w

/-! ## Memories -/

/-- A block that is out, the array that it was got for, and its bytes. -/
structure Copy where
  address : Address
  array : ObjectRef
  bytes : List UInt8

/-- What native code should find. -/
structure Memory where
  /-- The element types of the arrays. -/
  type? : ObjectRef → Option Primitive
  /-- The bytes of each array. -/
  bytes : ObjectRef → List UInt8
  /-- The blocks that were got for arrays, newest first. -/
  copies : List Copy
  /-- The blocks that are out for other reasons. -/
  others : List (Address × List UInt8)
  /-- The byte budget for blocks. -/
  limit : Nat

/-- What an operation comes to. -/
inductive Reaction where
  /-- A new block. -/
  | block (a : Address)
  /-- The bytes of a region. -/
  | region (bytes : List UInt8)
  | done
  /-- A throwable is raised. -/
  | raised
  deriving DecidableEq

namespace Memory

/-- Every block that is out. -/
def blocks (m : Memory) : List (Address × List UInt8) :=
  m.copies.map (fun c => (c.address, c.bytes)) ++ m.others

/-- The addresses that are out. -/
def addresses (m : Memory) : List Address := m.blocks.map Prod.fst

def inUse (m : Memory) : Nat := (m.blocks.map fun block => block.2.length).sum

/-- Whether the budget has room for `n` more bytes. -/
def HasRoom (m : Memory) (n : Nat) : Prop :=
  min (m.inUse + n) Buffers.wordLimit ≤ m.limit

instance (m : Memory) (n : Nat) : Decidable (m.HasRoom n) := inferInstanceAs (Decidable (_ ≤ _))

/-- Where a new block of `n` bytes is put, if there is room for one; `host` is what the host answers
to a request for so many bytes. -/
def granted (m : Memory) (host : Nat → Option Address) (n : Nat) : Option Address :=
  if m.HasRoom n then host n else none

/-- The number of elements of an array. -/
def size (m : Memory) (o : ObjectRef) (p : Primitive) : Nat := (m.bytes o).length / p.width

def copy? (m : Memory) (a : Address) : Option Copy := m.copies.find? fun c => c.address = a

/-- Replaces the bytes of an array. -/
def set (m : Memory) (o : ObjectRef) (new : List UInt8) : Memory :=
  { m with bytes := fun o' => if o' = o then new else m.bytes o' }

/-- Puts bytes into a block. -/
def poke (m : Memory) (a : Address) (start : Nat) (new : List UInt8) : Memory :=
  { m with
    copies := m.copies.map fun c =>
      if c.address = a then { c with bytes := Elements.splice c.bytes start new } else c }

/-- Takes a block back. -/
def drop (m : Memory) (a : Address) : Memory :=
  { m with copies := m.copies.filter fun c => c.address ≠ a }

/-- What an operation comes to, and the memory after it; `host` is what the host answers to a request
for a block of some length. -/
def step (m : Memory) (host : Nat → Option Address) : Op → Reaction × Memory
  | .get _ _ _ o _ =>
    match m.granted host (m.bytes o).length with
    | some a => (.block a, { m with copies := ⟨a, o, m.bytes o⟩ :: m.copies })
    | none => (.raised, m)
  | .write a start new => (.done, m.poke a start new)
  | .getRegion p _ o start count =>
    if InBounds start count (m.size o p) then
      (.region (((m.bytes o).drop (start.toInt.toNat * p.width)).take
        (count.toInt.toNat * p.width)), m)
    else (.raised, m)
  | .setRegion p _ o start count source =>
    if InBounds start count (m.size o p) then
      (.done, m.set o (Elements.splice (m.bytes o) (start.toInt.toNat * p.width)
        (source.take (count.toInt.toNat * p.width))))
    else (.raised, m)
  | .release _ _ _ o a mode =>
    let new := ((m.copy? a).map Copy.bytes).getD (m.bytes o)
    let m := if mode.copiesBack then m.set o new else m
    (.done, if mode.frees then m.drop a else m)

/-- The memory of a state in which native code has no copies yet. -/
def of (w : World H) : Memory where
  type? o :=
    match (w.object o).elements? with
    | some (.primitive p _) => some p
    | _ => none
  bytes o :=
    match (w.object o).elements? with
    | some (.primitive _ bytes) => bytes
    | _ => []
  copies := []
  others := (w.bridge.map fun b => b.buffers.blocks.map fun e => (e.1, e.2.contents)).getD []
  limit := (w.bridge.map fun b => b.buffers.limit).getD 0

end Memory

/-! ## Operations that make sense -/

/-- A handle stands for an array of some type. -/
def Names (m : Memory) (w : World H) (h : Handle) (o : ObjectRef) (p : Primitive) : Prop :=
  w.resolve h = some o ∧ m.type? o = some p

/-- Operations pass handles of the arrays that they mean, to functions for their types, and name
blocks that are out.  A block that the host grants is none of those that are out, and a word counts
the bytes of them all. -/
def Fits (m : Memory) (w : World H) : Op → Prop
  | .get p _ h o _ =>
    Names m w h o p ∧ (∀ a, w.grant (m.bytes o).length = some a → a ∉ m.addresses) ∧
      m.inUse + (m.bytes o).length ≤ Buffers.wordLimit
  | .write a start new => ∃ c, m.copy? a = some c ∧ start + new.length ≤ c.bytes.length
  | .getRegion p h o _ _ => Names m w h o p
  | .setRegion p h o _ count source =>
    Names m w h o p ∧ count.toInt.toNat * p.width ≤ source.length
  | .release p _ h o a _ => Names m w h o p ∧ ∃ c, m.copy? a = some c ∧ c.array = o

/-- What the memory says native code finds after operations that make sense, in any order.  What the
host answers to requests for memory may change at any time. -/
inductive Reached (call : Invoker H) (start : World H) : Memory → World H → Prop
  | start : Reached call start (.of start) start
  | step {m w op answer w'} (before : Reached call start m w) (fits : Fits m w op)
    (run : op.run call w = .ok answer w') : Reached call start (m.step w.grant op).2 w'
  | host {m w} (before : Reached call start m w) (memory : HostMemory) :
    Reached call start m { w with memory }

/-! ## What native code sees -/

/-- How the outcome of an operation shows. -/
inductive Shows (w : World H) : Op → Reaction → Answer → World H → Prop
  | block {p route h o flag a w'} (hp : w'.pending = w.pending) :
    Shows w (.get p route h o flag) (.block a) ⟨.buffer a, flag, []⟩ w'
  | region {op bytes w'} (hp : w'.pending = w.pending) :
    Shows w op (.region bytes) ⟨.nothing, false, bytes⟩ w'
  | done {op w'} (hp : w'.pending = w.pending) : Shows w op .done (.plain .nothing) w'
  /-- Nothing comes back, and a new throwable is pending. -/
  | raised {op t w'} (hp : w'.pending = some t) (hnew : w.heap.size ≤ t.index) :
    Shows w op .raised (.plain op.failure) w'

/-! ## Blocks -/

namespace Memory

variable {m : Memory} {a : Address} {c : Copy}

theorem granted_eq_some_iff {host : Nat → Option Address} {n : Nat} :
    m.granted host n = some a ↔ m.HasRoom n ∧ host n = some a := by
  rw [granted]
  split <;> simp [*]

theorem granted_eq_none_iff {host : Nat → Option Address} {n : Nat} :
    m.granted host n = none ↔ (m.HasRoom n → host n = none) := by
  rw [granted]
  split <;> simp [*]

theorem of_copy? (h : m.copy? a = some c) : c ∈ m.copies ∧ c.address = a :=
  ⟨List.mem_of_find?_eq_some h, by simpa using List.find?_some h⟩

theorem mem_blocks (h : m.copy? a = some c) : (a, c.bytes) ∈ m.blocks := by
  obtain ⟨hc, rfl⟩ := of_copy? h
  exact List.mem_append_left _ (List.mem_map_of_mem hc)

/-- A block is out for one reason only. -/
theorem notMem_others (hnd : m.addresses.Nodup) (h : m.copy? a = some c) :
    ∀ block ∈ m.others, block.1 ≠ a := by
  obtain ⟨hc, rfl⟩ := of_copy? h
  rintro block hblock he
  rw [addresses, blocks, List.map_append] at hnd
  refine (List.nodup_append.1 hnd).2.2 c.address ?_ block.1 (List.mem_map_of_mem hblock) he.symm
  rw [List.map_map]
  exact List.mem_map_of_mem hc

/-- Bytes that are put into a block show in this block only. -/
theorem blocks_poke (hnd : m.addresses.Nodup) (h : m.copy? a = some c) (start : Nat)
    (new : List UInt8) :
    (m.poke a start new).blocks = m.blocks.map fun block =>
      if block.1 = a then (a, Elements.splice block.2 start new) else block := by
  have hothers : (m.others.map fun block =>
      if block.1 = a then (a, Elements.splice block.2 start new) else block) = m.others :=
    (List.map_congr_left fun block hm => if_neg (notMem_others hnd h block hm)).trans
      (List.map_id _)
  rw [blocks, blocks, List.map_append, hothers, poke, List.map_map, List.map_map]
  congr 1
  refine List.map_congr_left fun c' _ => ?_
  by_cases he : c'.address = a
  · simp [he]
  · simp [he]

theorem blocks_drop (hnd : m.addresses.Nodup) (h : m.copy? a = some c) :
    (m.drop a).blocks = m.blocks.filter fun block => block.1 ≠ a := by
  have hothers : (m.others.filter fun block => block.1 ≠ a) = m.others :=
    List.filter_eq_self.2 fun block hm => by simpa using notMem_others hnd h block hm
  rw [blocks, blocks, List.filter_append, hothers, drop, List.filter_map]
  rfl

end Memory

/-- A block that was taken back is not out any more. -/
theorem Memory.notMem_addresses_drop {m : Memory} {a : Address} {c : Copy}
    (hnd : m.addresses.Nodup) (h : m.copy? a = some c) : a ∉ (m.drop a).addresses := by
  rw [Memory.addresses, Memory.blocks_drop hnd h, List.mem_map]
  rintro ⟨block, hblock, rfl⟩
  simpa using (List.mem_filter.1 hblock).2

/-- A registry has the blocks that a memory says. -/
structure Holds (m : Memory) (r : Buffers) : Prop where
  wellFormed : r.WellFormed
  limit : r.limit = m.limit
  blocks : (r.blocks.map fun e => (e.1, e.2.contents)) = m.blocks

namespace Holds

variable {m : Memory} {r : Buffers} {a : Address} {c : Copy} (h : Holds m r)
include h

theorem addresses : r.addresses = m.addresses := by
  rw [Memory.addresses, ← h.blocks, List.map_map]
  rfl

theorem nodup : m.addresses.Nodup := h.addresses ▸ h.wellFormed.addresses_nodup

theorem inUse : r.inUse = m.inUse := by
  rw [h.wellFormed.inUse_eq, Memory.inUse, ← h.blocks, List.map_map, Buffers.total]
  congr 1
  exact List.map_congr_left fun e _ => (Block.length_contents e.2).symm

theorem hasRoom_iff {n : Nat} : m.HasRoom n ↔ r.Affords n := by
  rw [Memory.HasRoom, Buffers.Affords, h.inUse, h.limit]

theorem find? (hc : m.copy? a = some c) :
    ∃ block, r.find? a = some block ∧ block.contents = c.bytes := by
  have hm := Memory.mem_blocks hc
  rw [← h.blocks, List.mem_map] at hm
  obtain ⟨⟨a', block⟩, hm, he⟩ := hm
  obtain ⟨rfl, hcontents⟩ := Prod.mk.inj he
  exact ⟨block, h.wellFormed.mem_blocks_iff.1 hm, hcontents⟩

theorem enter {bytes : List UInt8} (hroom : m.HasRoom bytes.length) (ha : a ∉ m.addresses)
    (hword : m.inUse + bytes.length ≤ Buffers.wordLimit) (o : ObjectRef) :
    Holds { m with copies := ⟨a, o, bytes⟩ :: m.copies } (r.enter a ⟨bytes.length, bytes⟩) where
  wellFormed := by
    refine h.wellFormed.enter (h.addresses ▸ ha) ?_
    rw [← h.inUse, h.wellFormed.inUse_eq] at hword
    exact h.wellFormed.inUse_add_le (h.hasRoom_iff.1 hroom) hword
  limit := h.limit
  blocks := by
    show (a, Block.contents ⟨bytes.length, bytes⟩) :: _ = (a, bytes) :: m.blocks
    rw [Block.contents_of_length rfl, ← h.blocks]

theorem poke (hc : m.copy? a = some c) {start : Nat} {new : List UInt8}
    (hfits : start + new.length ≤ c.bytes.length) :
    Holds (m.poke a start new) (r.store a (Elements.splice c.bytes start new)) where
  wellFormed := h.wellFormed.store _ _
  limit := h.limit
  blocks := by
    rw [Memory.blocks_poke h.nodup hc, ← h.blocks, Buffers.store, List.map_map, List.map_map]
    refine List.map_congr_left fun e he => ?_
    obtain ⟨block, hblock, hcontents⟩ := h.find? hc
    by_cases hea : e.1 = a
    · have heq : e.2 = block := by
        have hm : (a, e.2) ∈ r.blocks := hea ▸ he
        exact Option.some.inj ((h.wellFormed.mem_blocks_iff.1 hm).symm.trans hblock)
      have hlength : (Elements.splice c.bytes start new).length = block.length := by
        rw [Elements.length_splice hfits, ← hcontents, Block.length_contents]
      simp only [Function.comp_apply, if_pos hea, heq, hcontents]
      exact congrArg (Prod.mk a) (Block.contents_of_length hlength)
    · simp only [Function.comp_apply, if_neg hea]

theorem drop (hc : m.copy? a = some c) : Holds (m.drop a) (r.remove a c.bytes.length) := by
  obtain ⟨block, hblock, hcontents⟩ := h.find? hc
  rw [← hcontents, Block.length_contents]
  exact {
    wellFormed := h.wellFormed.remove hblock
    limit := h.limit
    blocks := by
      rw [Memory.blocks_drop h.nodup hc, ← h.blocks, List.filter_map]
      rfl }

theorem set (o : ObjectRef) (new : List UInt8) : Holds (m.set o new) r :=
  ⟨h.wellFormed, h.limit, h.blocks⟩

end Holds

/-! ## States that mirror a memory -/

/-- A state holds what a memory says. -/
structure Mirrors (m : Memory) (w : World H) : Prop where
  attached : w.attachment.isSome = true
  arrays : ∀ {o p}, m.type? o = some p →
    (w.object o).elements? = some (.primitive p (m.bytes o))
  /-- An array holds whole elements. -/
  whole : ∀ {o p}, m.type? o = some p → p.width ∣ (m.bytes o).length
  blocks : ∃ b, w.bridge = some b ∧ Holds m b.buffers
  /-- A copy is as long as its array. -/
  copies : ∀ c ∈ m.copies, c.bytes.length = (m.bytes c.array).length

namespace Mirrors

variable {m : Memory} {w w' : World H} {o : ObjectRef} {p : Primitive} (r : Mirrors m w)
include r

theorem lt_size (ho : m.type? o = some p) : o.index < w.heap.size := by
  refine Nat.lt_of_not_le fun hle => ?_
  have harray := r.arrays ho
  have hnone : w.object o = default := by
    show w.heap.objects[o.index]?.getD default = default
    rw [Array.getElem?_eq_none hle]
    rfl
  rw [hnone] at harray
  cases harray

/-- What leaves the state untouched leaves it a mirror of the memory. -/
theorem untouched (u : w.Untouched w') : Mirrors m w' where
  attached := by
    have h := r.attached
    rw [← Option.isSome_map (f := Attachment.locals), ← u.locals, Option.isSome_map] at h
    exact h
  arrays ho := by
    rw [u.object (r.lt_size ho)]
    exact r.arrays ho
  whole := r.whole
  blocks := by
    obtain ⟨b, hb, hholds⟩ := r.blocks
    have hbuffers := u.buffers
    rw [hb, Option.map_some] at hbuffers
    obtain ⟨b', hb', he⟩ := Option.map_eq_some_iff.1 hbuffers
    exact ⟨b', hb', he ▸ hholds⟩
  copies := r.copies

/-- Elements are replaced by as many others. -/
theorem set (ho : m.type? o = some p) {new : List UInt8}
    (hnew : new.length = (m.bytes o).length) : Mirrors (m.set o new) (w.setBytes o p new) where
  attached := r.attached
  arrays {o' p'} ho' := by
    by_cases he : o' = o
    · subst he
      obtain rfl : p' = p := Option.some.inj (ho'.symm.trans ho)
      show ((w.setObject _ _).object _).elements? = _
      rw [World.object_setObject_self (r.lt_size ho)]
      exact congrArg (fun bytes => some (Elements.primitive p' bytes)) (if_pos rfl).symm
    · show ((w.setObject _ _).object _).elements? = _
      rw [World.object_setObject_of_ne (Ne.symm he)]
      exact (r.arrays ho').trans
        (congrArg (fun bytes => some (Elements.primitive p' bytes)) (if_neg he).symm)
  whole {o' p'} ho' := by
    show p'.width ∣ (if o' = o then new else m.bytes o').length
    split
    next he =>
      rw [hnew, ← he]
      exact r.whole ho'
    next => exact r.whole ho'
  blocks := by
    obtain ⟨b, hb, hholds⟩ := r.blocks
    exact ⟨b, hb, hholds.set o new⟩
  copies c hc := by
    show c.bytes.length = (if c.array = o then new else m.bytes c.array).length
    rw [r.copies c hc]
    split
    next he => rw [hnew, he]
    next => rfl

/-- Other blocks are out, and arrays are as they were. -/
theorem withBlocks {m' : Memory} {b : Bridge} (hb : w'.bridge = some b)
    (hholds : Holds m' b.buffers) (htype : m'.type? = m.type?) (hbytes : m'.bytes = m.bytes)
    (hcopies : ∀ c ∈ m'.copies, c.bytes.length = (m.bytes c.array).length)
    (hthread : w'.thread = w.thread) (hheap : w'.heap = w.heap) : Mirrors m' w' where
  attached := by
    show w'.thread.attachment.isSome = true
    rw [hthread]
    exact r.attached
  arrays {o' p'} ho' := by
    rw [htype] at ho'
    show (w'.heap.get o').elements? = _
    rw [hheap, hbytes]
    exact r.arrays ho'
  whole ho' := by
    rw [htype] at ho'
    rw [hbytes]
    exact r.whole ho'
  blocks := ⟨b, hb, hholds⟩
  copies := by
    rw [hbytes]
    exact hcopies

theorem get {b : Bridge} (hholds : Holds m b.buffers) {a : Address} (ha : a ∉ m.addresses)
    (hroom : m.HasRoom (m.bytes o).length)
    (hword : m.inUse + (m.bytes o).length ≤ Buffers.wordLimit) :
    Mirrors { m with copies := ⟨a, o, m.bytes o⟩ :: m.copies }
      (w.withBlock b a (m.bytes o)) := by
  refine r.withBlocks rfl (hholds.enter hroom ha hword o) rfl rfl (fun c hc => ?_) rfl rfl
  rcases List.mem_cons.1 hc with rfl | hc
  · rfl
  · exact r.copies c hc

theorem poke {a : Address} {c : Copy} (hc : m.copy? a = some c) {start : Nat} {new : List UInt8}
    (hfits : start + new.length ≤ c.bytes.length) :
    Mirrors (m.poke a start new) (Arrays.poke w a start new) := by
  obtain ⟨b, hb, hholds⟩ := r.blocks
  obtain ⟨block, hblock, hcontents⟩ := hholds.find? hc
  have hbytes : (b.buffers.contents a).toOption.getD [] = c.bytes := by
    rw [Buffers.contents, hblock, ← hcontents]
    rfl
  have hbridge : (Arrays.poke w a start new).bridge = some { b with
      buffers := b.buffers.store a (Elements.splice c.bytes start new) } := by
    rw [Arrays.poke, hb, Option.map_some, hbytes]
  refine r.withBlocks hbridge (hholds.poke hc hfits) rfl rfl (fun c' hc' => ?_) rfl rfl
  obtain ⟨old, hold, rfl⟩ := List.mem_map.1 hc'
  by_cases he : old.address = a
  · -- No other copy has the address.
    have hcopy : old.bytes = c.bytes := by
      have hm : (a, old.bytes) ∈ m.blocks :=
        he ▸ List.mem_append_left _ (List.mem_map_of_mem hold)
      rw [← hholds.blocks, List.mem_map] at hm
      obtain ⟨⟨a', block'⟩, hm, hpair⟩ := hm
      obtain ⟨rfl, hcontents'⟩ := Prod.mk.inj hpair
      have := (hholds.wellFormed.mem_blocks_iff.1 hm).symm.trans hblock
      rw [← hcontents', ← hcontents, Option.some.inj this]
    rw [if_pos he]
    show (Elements.splice old.bytes start new).length = (m.bytes old.array).length
    rw [Elements.length_splice (hcopy ▸ hfits), r.copies old hold]
  · rw [if_neg he]
    exact r.copies old hold

theorem drop {b : Bridge} (hholds : Holds m b.buffers) {a : Address}
    {c : Copy} (hc : m.copy? a = some c) :
    Mirrors (m.drop a) { w with
      bridge := some { b with buffers := b.buffers.remove a c.bytes.length } } :=
  r.withBlocks rfl (hholds.drop hc) rfl rfl (fun c' hc' => r.copies c' (List.mem_filter.1 hc').1)
    rfl rfl

/-! ### Steps -/

/-- A function that fails on its own raises, and nothing that the memory knows of changes. -/
theorem raises {call : Invoker H} {f : Function} {args : List Argument} {e : EntryError}
    {fault : GuestFault} (he : e.surface = .fault fault)
    (hbody : perform call f args w = .error e w) :
    ∃ w', (callFunction call (ownEnv w) f args w : Outcome H Empty Answer) =
        .ok (.plain f.failure) w' ∧
      Mirrors m w' ∧ ∃ t, w'.pending = some t ∧ w.heap.size ≤ t.index :=
  ⟨_, callFunction_fails r.attached he hbody, r.untouched (w.untouched_raised fault), _,
    World.pending_raised r.attached fault, Nat.le_refl _⟩

/-- An operation that makes sense shows what the memory says, and the state afterwards mirrors the
memory afterwards. -/
theorem step (call : Invoker H) {op : Op} (fits : Fits m w op) :
    ∃ answer w', op.run call w = .ok answer w' ∧
      Shows w op (m.step w.grant op).1 answer w' ∧
      Mirrors (m.step w.grant op).2 w' := by
  obtain ⟨b, hb, hholds⟩ := r.blocks
  cases op with
  | get p route h o flag =>
    obtain ⟨⟨hh, ho⟩, hfresh, hword⟩ := fits
    have hget := getElements_eq hh (r.arrays ho) (route.all_expected p)
    cases hgranted : m.granted w.grant (m.bytes o).length with
    | some a =>
      obtain ⟨hroom, hgrant⟩ := Memory.granted_eq_some_iff.1 hgranted
      have hfresh := hfresh a hgrant
      have hbuffer := bufferOf_ok hb (hholds.hasRoom_iff.1 hroom) hgrant (hholds.addresses ▸ hfresh)
      have hbody : perform call (route.getter p) [.handle h, .copyFlag flag] w =
          .ok ⟨.buffer a, flag, []⟩ (w.withBlock b a (m.bytes o)) := by
        rw [Route.perform_getter]
        exact Action.bind_ok (hget.trans hbuffer)
      rw [Memory.step, hgranted]
      exact ⟨_, _, callFunction_done r.attached hbody, .block rfl,
        r.get hholds hfresh hroom hword⟩
    | none =>
      obtain ⟨e, hbuffer⟩ := bufferOf_full hb fun hbudget =>
        Memory.granted_eq_none_iff.1 hgranted (hholds.hasRoom_iff.2 hbudget)
      have hbody : perform call (route.getter p) [.handle h, .copyFlag flag] w =
          .error (.alloc e) w := by
        rw [Route.perform_getter]
        exact Action.bind_error (hget.trans hbuffer)
      obtain ⟨w', hcall, hmirrors, t, hp, hnew⟩ := r.raises rfl hbody
      rw [Route.failure_getter] at hcall
      rw [Memory.step, hgranted]
      exact ⟨_, w', hcall, .raised hp hnew, hmirrors⟩
  | write a start new =>
    obtain ⟨c, hc, hfits⟩ := fits
    exact ⟨_, _, rfl, .done rfl, r.poke hc hfits⟩
  | getRegion p h o start count =>
    obtain ⟨hh, ho⟩ := fits
    by_cases hin : InBounds start count (m.size o p)
    · have hbody : perform call (.getArrayRegion p)
          [.handle h, .primitive (.int start), .primitive (.int count), .target true] w =
          .ok ⟨.nothing, false, _⟩ w :=
        Action.bind_ok (getArrayRegion_in hh (r.arrays ho) hin)
      rw [Memory.step, if_pos hin]
      exact ⟨_, w, callFunction_done r.attached hbody, .region rfl, r⟩
    · obtain ⟨f, hregion⟩ := getArrayRegion_out hh (r.arrays ho) hin true
      have hbody : perform call (.getArrayRegion p)
          [.handle h, .primitive (.int start), .primitive (.int count), .target true] w =
          .error (.fault f) w := Action.bind_error hregion
      obtain ⟨w', hcall, hmirrors, t, hp, hnew⟩ := r.raises rfl hbody
      rw [Memory.step, if_neg hin]
      exact ⟨_, w', hcall, .raised hp hnew, hmirrors⟩
  | setRegion p h o start count source =>
    obtain ⟨⟨hh, ho⟩, hsource⟩ := fits
    by_cases hin : InBounds start count (m.size o p)
    · have hbody : perform call (.setArrayRegion p)
          [.handle h, .primitive (.int start), .primitive (.int count), .source (some source)] w =
          .ok (.plain .nothing) (w.setBytes o p _) :=
        Action.bind_ok (setArrayRegion_in hh (r.arrays ho) hin hsource)
      have hlength : (Elements.splice (m.bytes o) (start.toInt.toNat * p.width)
          (source.take (count.toInt.toNat * p.width))).length = (m.bytes o).length := by
        refine Elements.length_splice ?_
        rw [List.length_take, Nat.min_eq_left hsource, ← Nat.add_mul]
        exact Elements.mul_le_of_le_size hin.add_le
      rw [Memory.step, if_pos hin]
      exact ⟨_, _, callFunction_done r.attached hbody, .done rfl, r.set ho hlength⟩
    · obtain ⟨f, hregion⟩ := setArrayRegion_out hh (r.arrays ho) hin (some source)
      have hbody : perform call (.setArrayRegion p)
          [.handle h, .primitive (.int start), .primitive (.int count), .source (some source)] w =
          .error (.fault f) w := Action.bind_error hregion
      obtain ⟨w', hcall, hmirrors, t, hp, hnew⟩ := r.raises rfl hbody
      rw [Memory.step, if_neg hin]
      exact ⟨_, w', hcall, .raised hp hnew, hmirrors⟩
  | release p route h o a mode =>
    obtain ⟨⟨hh, ho⟩, c, hc, rfl⟩ := fits
    obtain ⟨block, hblock, hcontents⟩ := hholds.find? hc
    have hlength : c.bytes.length = (m.bytes c.array).length := r.copies c (Memory.of_copy? hc).1
    have hrelease := releaseElements_ok hh (r.arrays ho) (route.all_expected p) (r.whole ho) hb
      hblock (by rw [← Block.length_contents, hcontents, hlength]) mode
    rw [hcontents] at hrelease
    have hbody : perform call (route.releaser p)
        [.handle h, .buffer a, .primitive (.int mode.code)] w =
        .ok (.plain .nothing) (releasedWorld w c.array p b a c.bytes mode) := by
      rw [Route.perform_releaser]
      exact Action.bind_ok hrelease
    refine ⟨_, _, callFunction_done r.attached hbody, ?_, ?_⟩
    · cases mode <;> exact .done rfl
    · rw [Memory.step, hc]
      cases mode with
      | finish =>
        exact (r.set ho hlength).drop (hholds.set _ _) hc
      | commit => exact r.set ho hlength
      | abort => exact r.drop hholds hc

end Mirrors

/-! ## Runs -/

/-- Every primitive array holds whole elements. -/
def WholeArrays (w : World H) : Prop :=
  ∀ o p bytes, (w.object o).elements? = some (.primitive p bytes) → p.width ∣ bytes.length

theorem elements_of_type? {w : World H} {o : ObjectRef} {p : Primitive}
    (h : (Memory.of w).type? o = some p) :
    (w.object o).elements? = some (.primitive p ((Memory.of w).bytes o)) := by
  unfold Memory.of at h ⊢
  dsimp only at h ⊢
  cases he : (w.object o).elements? with
  | none =>
    rw [he] at h
    cases h
  | some e =>
    rw [he] at h
    cases e with
    | primitive q bytes =>
      cases h
      rfl
    | references items => cases h

theorem mirrors_of {w : World H} {b : Bridge} (attached : w.attachment.isSome = true)
    (hb : w.bridge = some b) (wf : b.buffers.WellFormed) (whole : WholeArrays w) :
    Mirrors (.of w) w where
  attached := attached
  arrays := elements_of_type?
  whole h := whole _ _ _ (elements_of_type? h)
  blocks := by
    refine ⟨b, hb, wf, ?_, ?_⟩
    · rw [Memory.of, hb]
      rfl
    · rw [Memory.blocks, Memory.of, hb]
      rfl
  copies := by simp [Memory.of]

/-- Whatever native code has done, the state mirrors the memory. -/
theorem Reached.mirrors {call : Invoker H} {start w : World H} {m : Memory}
    (hstart : Mirrors (.of start) start) (h : Reached call start m w) : Mirrors m w := by
  induction h with
  | start => exact hstart
  | @step m w op answer w' before fits run ih =>
    obtain ⟨answer', w'', hrun, -, hmirrors⟩ := ih.step call fits
    rw [run] at hrun
    cases hrun
    exact hmirrors
  | host _ memory ih => exact { ih with }

/-- A state agrees with a memory, now and after whatever native code does next. -/
structure ActsAsMemory (call : Invoker H) (m : Memory) (w : World H) : Prop where
  /-- Every array holds its bytes. -/
  arrays : ∀ o p, m.type? o = some p → (w.object o).elements? = some (.primitive p (m.bytes o))
  /-- Exactly the blocks of the memory are out, each with its bytes. -/
  blocks : ∃ b, w.bridge = some b ∧
    (b.buffers.blocks.map fun e => (e.1, e.2.contents)) = m.blocks
  /-- No two of them are at one address. -/
  distinct : m.addresses.Nodup
  /-- What makes sense shows what the memory says. -/
  reacts : ∀ op, Fits m w op → ∃ answer w', op.run call w = .ok answer w' ∧
    Shows w op (m.step w.grant op).1 answer w'
  /-- A region that is read and written back leaves everything as it was. -/
  roundTrip : ∀ p h o start count, Names m w h o p → InBounds start count (m.size o p) →
    ∃ bytes, (Op.getRegion p h o start count).run call w = .ok ⟨.nothing, false, bytes⟩ w ∧
      (Op.setRegion p h o start count bytes).run call w = .ok (.plain .nothing) w
  /-- A release that frees takes its block back. -/
  freed : ∀ p route h o a mode host, Fits m w (.release p route h o a mode) →
    mode.frees = true → a ∉ (m.step host (.release p route h o a mode)).2.addresses
  /-- A block that is not out cannot be released. -/
  gone : ∀ p route h o a mode, a ∉ m.addresses →
    ∃ v, (Op.release p route h o a mode).run call w = .halt (.violation v) w

theorem Mirrors.roundTrip {m : Memory} {w : World H} (r : Mirrors m w) (call : Invoker H)
    {p : Primitive} {h : Handle} {o : ObjectRef} {start count : Int32} (names : Names m w h o p)
    (hin : InBounds start count (m.size o p)) :
    ∃ bytes, (Op.getRegion p h o start count).run call w = .ok ⟨.nothing, false, bytes⟩ w ∧
      (Op.setRegion p h o start count bytes).run call w = .ok (.plain .nothing) w := by
  obtain ⟨hh, ho⟩ := names
  have hend : start.toInt.toNat * p.width + count.toInt.toNat * p.width ≤ (m.bytes o).length := by
    rw [← Nat.add_mul]
    exact Elements.mul_le_of_le_size hin.add_le
  let bytes := ((m.bytes o).drop (start.toInt.toNat * p.width)).take (count.toInt.toNat * p.width)
  have hlength : bytes.length = count.toInt.toNat * p.width := by
    rw [List.length_take, List.length_drop]
    omega
  have hread : perform call (.getArrayRegion p)
      [.handle h, .primitive (.int start), .primitive (.int count), .target true] w =
      .ok ⟨.nothing, false, bytes⟩ w := Action.bind_ok (getArrayRegion_in hh (r.arrays ho) hin)
  have hwrite : perform call (.setArrayRegion p)
      [.handle h, .primitive (.int start), .primitive (.int count), .source (some bytes)] w =
      .ok (.plain .nothing) w := by
    have hset := setArrayRegion_in hh (r.arrays ho) hin (Nat.le_of_eq hlength.symm)
    rw [List.take_of_length_le (Nat.le_of_eq hlength), Elements.splice_self hend,
      World.setBytes_self (r.arrays ho)] at hset
    exact Action.bind_ok hset
  exact ⟨bytes, callFunction_done r.attached hread, callFunction_done r.attached hwrite⟩

theorem Mirrors.gone {m : Memory} {w : World H} (r : Mirrors m w) (call : Invoker H)
    (p : Primitive) (route : Route) (h : Handle) (o : ObjectRef) {a : Address}
    (mode : ReleaseMode) (ha : a ∉ m.addresses) :
    ∃ v, (Op.release p route h o a mode).run call w = .halt (.violation v) w := by
  obtain ⟨b, hb, hholds⟩ := r.blocks
  have hbody : perform call (route.releaser p)
      [.handle h, .buffer a, .primitive (.int mode.code)] w =
      .error (.contract (b.buffers.missing a)) w := by
    rw [Route.perform_releaser]
    exact Action.bind_error (releaseElements_missing hb (hholds.addresses ▸ ha) mode)
  exact ⟨_, callFunction_violation r.attached hbody⟩

/-- Copies, writes, regions and releases in any order act on arrays as on plain memory. -/
theorem arrays_act_as_memory (call : Invoker H) {start : World H} {b : Bridge}
    (attached : start.attachment.isSome = true) (hb : start.bridge = some b)
    (wf : b.buffers.WellFormed) (whole : WholeArrays start) {m : Memory} {w : World H}
    (h : Reached call start m w) : ActsAsMemory call m w := by
  have r := h.mirrors (mirrors_of attached hb wf whole)
  obtain ⟨b', hb', hholds⟩ := r.blocks
  constructor
  case arrays => exact fun o p ho => r.arrays ho
  case blocks => exact ⟨b', hb', hholds.blocks⟩
  case distinct => exact hholds.nodup
  case reacts =>
    intro op fits
    obtain ⟨answer, w', hrun, hshows, -⟩ := r.step call fits
    exact ⟨answer, w', hrun, hshows⟩
  case roundTrip => exact fun p h o start count names hin => r.roundTrip call names hin
  case freed =>
    rintro p route h o a mode host ⟨-, c, hc, -⟩ hfrees
    rw [Memory.step, hfrees, if_pos rfl]
    split
    · exact Memory.notMem_addresses_drop hholds.nodup hc
    · exact Memory.notMem_addresses_drop hholds.nodup hc
  case gone => exact fun p route h o a mode ha => r.gone call p route h o mode ha

/-- An attached thread with a reference to an array of two numbers. -/
def arrayHolder : World Unit :=
  { ((World.bare World.defaultCallDepth .growing ()).install .default).setAttachment
      (some ⟨0, (Locals.empty 16).place 0 ⟨0⟩, .empty⟩) with
    heap := ⟨#[⟨default, .array (.primitive .short [1, 0, 2, 0]), .free⟩]⟩ }

/-- The reference. -/
def arrayHandle : Handle := ((Locals.empty 16).place 0 ⟨0⟩ : Locals ObjectRef).handleAt 0

/-- Where the thread gets its first block. -/
abbrev firstBlock : Address := (arrayHolder.grant 4).getD 0

theorem wholeArrays_arrayHolder : WholeArrays arrayHolder := by
  rintro ⟨i⟩ p bytes h
  rcases i with _ | i
  · cases h
    decide
  · cases h

/-- The second number is changed in a copy, and the copy is released. -/
theorem arrays_act_as_memory_through_copy :
    let call : Invoker Unit := fun _ _ _ => Action.halt .outOfFuel
    ∃ m w, Reached call arrayHolder m w ∧ ActsAsMemory call m w ∧
      (w.object ⟨0⟩).elements? = some (.primitive .short [1, 0, 7, 0]) := by
  intro call
  have names : ∀ {w : World Unit}, w.resolve arrayHandle = some ⟨0⟩ →
      ∀ {m : Memory}, m.type? = (Memory.of arrayHolder).type? →
      Names m w arrayHandle ⟨0⟩ .short := fun hh m hm => ⟨hh, by rw [hm]; rfl⟩
  have h₀ : Reached call arrayHolder (.of arrayHolder) arrayHolder := .start
  have h₁ := h₀.step (show Fits _ _ (.get .short .critical arrayHandle ⟨0⟩ false) from
    ⟨names rfl rfl, fun _ _ => List.not_mem_nil, by decide⟩) rfl
  have h₂ := h₁.step (show Fits _ _ (.write firstBlock 2 [7]) from ⟨_, rfl, by decide⟩) rfl
  have h₃ := h₂.step (show Fits _ _ (.release .short .typed arrayHandle ⟨0⟩ firstBlock .finish)
    from ⟨names rfl rfl, _, rfl, rfl⟩) rfl
  exact ⟨_, _, h₃, arrays_act_as_memory call rfl rfl (Buffers.wellFormed_empty _)
    wholeArrays_arrayHolder h₃, rfl⟩

end GuestBoundary.Arrays
