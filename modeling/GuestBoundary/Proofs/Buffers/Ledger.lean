import GuestBoundary.Proofs.Buffers.Table

/-!
# The registry of buffers as a map

A `History` performs operations in any order on an empty registry and writes down what came of
each.  From that record alone one can read which blocks are out and what they hold
(`History.out`): an allocation enters a block, a release strikes one out, a write replaces the
bytes of one.  As long as the host keeps to its part (`History.Sound`), the registry is this map
(`Consistent`): its counter is the sum of the lengths, and no operation on one block shows in
another.
-/

namespace GuestBoundary.Buffers

/-! ## Operations -/

/-- What the users of a registry may do.  An allocation comes with what the host answers to it, and
native code that has got a block writes to it without asking. -/
inductive Op where
  | allocate (length : Nat) (host : Option Address)
  | allocateFrom (bytes : List UInt8) (host : Option Address)
  | contents (a : Address)
  | lengthOf (a : Address)
  | release (a : Address)
  | write (a : Address) (bytes : List UInt8)
  deriving DecidableEq

/-- What they get to know. -/
inductive Answer where
  /-- The address of a new block. -/
  | block (a : Address)
  | bytes (bytes : List UInt8)
  | length? (n : Option Nat)
  /-- A block of this length came back. -/
  | freed (n : Nat)
  | done
  /-- The budget or the host has no room. -/
  | full (e : AllocError)
  | misuse (v : ContractViolation)
  deriving DecidableEq

/-- The answer and the registry after an allocation. -/
def allocated (r : Buffers) (host : Option Address) : Except AllocError Buffers → Answer × Buffers
  | .ok r => (.block (host.getD 0), r)
  | .error e => (.full e, r)

/-- Performs an operation. -/
def perform (r : Buffers) : Op → Answer × Buffers
  | .allocate n host => r.allocated host (r.allocate n host)
  | .allocateFrom bytes host => r.allocated host (r.allocateFrom bytes host)
  | .contents a =>
    match r.contents a with
    | .ok bytes => (.bytes bytes, r)
    | .error v => (.misuse v, r)
  | .lengthOf a => (.length? (r.lengthOf? a), r)
  | .release a =>
    match r.release a with
    | .ok (n, r) => (.freed n, r)
    | .error v => (.misuse v, r)
  | .write a bytes => (.done, r.store a bytes)

theorem perform_allocate (r : Buffers) (n : Nat) (host : Option Address) :
    r.perform (.allocate n host) =
      if r.Affords n then
        match host with
        | some a => (.block a, r.enter a ⟨n, []⟩)
        | none => (.full (.outOfMemory n), r)
      else (.full (.bufferLimit n r.inUse r.limit), r) := by
  rw [perform, allocate_eq]
  by_cases hn : r.Affords n
  · rw [if_pos hn, if_pos hn]
    cases host <;> rfl
  · rw [if_neg hn, if_neg hn]
    rfl

theorem perform_allocateFrom (r : Buffers) (bytes : List UInt8) (host : Option Address) :
    r.perform (.allocateFrom bytes host) =
      if r.Affords bytes.length then
        match host with
        | some a => (.block a, (r.enter a ⟨bytes.length, []⟩).store a bytes)
        | none => (.full (.outOfMemory bytes.length), r)
      else (.full (.bufferLimit bytes.length r.inUse r.limit), r) := by
  rw [perform, allocateFrom_eq]
  by_cases hn : r.Affords bytes.length
  · rw [if_pos hn, if_pos hn]
    cases host <;> rfl
  · rw [if_neg hn, if_neg hn]
    rfl

theorem perform_contents (r : Buffers) (a : Address) :
    r.perform (.contents a) =
      match r.find? a with
      | some block => (.bytes block.contents, r)
      | none => (.misuse (r.missing a), r) := by
  rw [perform, contents]
  cases r.find? a <;> rfl

theorem perform_release (r : Buffers) (a : Address) :
    r.perform (.release a) =
      match r.find? a with
      | some block => (.freed block.length, r.remove a block.length)
      | none => (.misuse (r.missing a), r) := by
  rw [perform, release_eq]
  cases r.find? a <;> rfl

namespace Op

/-- The block that an operation is about, if it is about one that should be out. -/
def target? : Op → Option Address
  | allocate _ _ | allocateFrom _ _ => none
  | contents a | lengthOf a | release a | write a _ => some a

/-- The length of the block that an operation asks for, and the address that the host answers. -/
def grant? : Op → Option (Nat × Address)
  | allocate n host => host.map fun a => (n, a)
  | allocateFrom bytes host => host.map fun a => (bytes.length, a)
  | _ => none

end Op

/-! ## Histories -/

/-- An operation and what came of it. -/
structure Event where
  op : Op
  answer : Answer

/-- The map of the blocks that are out after one more event. -/
def Event.note (e : Event) (out : List (Address × List UInt8)) : List (Address × List UInt8) :=
  match e.op, e.answer with
  | .allocate n _, .block a => (a, List.replicate n 0) :: out
  | .allocateFrom bytes _, .block a => (a, bytes) :: out
  | .release a, .freed _ => out.filter fun entry => entry.1 ≠ a
  | .write a bytes, _ => out.map fun entry =>
      if entry.1 = a then (a, (⟨entry.2.length, bytes⟩ : Block).contents) else entry
  | _, _ => out

/-- A registry after some operations, and what came of them, the last event first. -/
structure History where
  registry : Buffers
  events : List Event

namespace History

/-- An empty registry. -/
def start (limit : Nat) : History := ⟨empty limit, []⟩

/-- Performs one more operation. -/
def step (s : History) (op : Op) : History :=
  let (answer, registry) := s.registry.perform op
  ⟨registry, ⟨op, answer⟩ :: s.events⟩

/-- Performs operations in order on an empty registry. -/
def run (limit : Nat) (ops : List Op) : History := ops.foldl step (start limit)

/-- The blocks that are out, each with its bytes. -/
def out (s : History) : List (Address × List UInt8) := s.events.foldr Event.note []

def addresses (s : History) : List Address := s.out.map Prod.fst

/-- How many bytes are out. -/
def total (s : History) : Nat := (s.out.map fun entry => entry.2.length).sum

/-- An address was handed out and came back, and has not been handed out since. -/
def Retired (s : History) (a : Address) : Prop :=
  ∃ later n earlier, s.events = later ++ ⟨.release a, .freed n⟩ :: earlier ∧
    (∃ e ∈ earlier, e.answer = .block a) ∧ ∀ e ∈ later, e.answer ≠ .block a

/-- What is assumed of the host when the budget affords a block: the block that it grants is none
of those that are out, and a word counts the bytes of them all. -/
def Sound (s : History) (op : Op) : Prop :=
  match op.grant? with
  | some (n, a) =>
    s.registry.Affords n → a ∉ s.addresses ∧ s.total + n ≤ wordLimit
  | none => True

instance (s : History) (op : Op) : Decidable (s.Sound op) := by
  unfold Sound
  split <;> infer_instance

/-- The host keeps to its part in every one of some operations. -/
def AllSound (s : History) : List Op → Prop
  | [] => True
  | op :: ops => s.Sound op ∧ (s.step op).AllSound ops

instance decidableAllSound : (s : History) → (ops : List Op) → Decidable (s.AllSound ops)
  | _, [] => .isTrue trivial
  | s, op :: ops =>
    have := decidableAllSound (s.step op) ops
    inferInstanceAs (Decidable (_ ∧ _))

end History

/-! ## Registries that are what their record says -/

variable {s : History} {r : Buffers} {a : Address} {op : Op}

/-- A registry holds the blocks that the record says, and the addresses that it remembers as
released are retired. -/
structure Consistent (s : History) : Prop where
  wellFormed : s.registry.WellFormed
  out_eq : s.out = s.registry.blocks.map fun entry => (entry.1, entry.2.contents)
  issued : ∀ a ∈ s.registry.addresses, ∃ e ∈ s.events, e.answer = .block a
  retired : ∀ a ∈ s.registry.released, s.Retired a

namespace Consistent

theorem start (limit : Nat) : Consistent (History.start limit) where
  wellFormed := wellFormed_empty limit
  out_eq := rfl
  issued := by simp [History.start, Buffers.addresses, empty]
  retired := by simp [History.start, empty]

theorem addresses_eq (c : Consistent s) : s.addresses = s.registry.addresses := by
  rw [History.addresses, c.out_eq, List.map_map]
  rfl

theorem total_eq (c : Consistent s) : s.total = s.registry.total := by
  rw [History.total, c.out_eq, List.map_map, Buffers.total]
  congr 1
  exact List.map_congr_left fun entry _ => Block.length_contents entry.2

/-- The record and the registry know the same bytes at each address. -/
theorem lookup_out (c : Consistent s) (a : Address) :
    s.out.lookup a = (s.registry.find? a).map Block.contents := by
  rw [c.out_eq, find?]
  induction s.registry.blocks with
  | nil => rfl
  | cons entry blocks ih =>
    rw [List.map_cons, List.lookup_cons, List.lookup_cons, ih]
    cases a == entry.1 <;> rfl

theorem mem_out_iff (c : Consistent s) {bytes : List UInt8} :
    (a, bytes) ∈ s.out ↔ ∃ block, s.registry.find? a = some block ∧ block.contents = bytes := by
  rw [c.out_eq, List.mem_map]
  constructor
  · rintro ⟨⟨a, block⟩, hm, he⟩
    cases he
    exact ⟨block, c.wellFormed.mem_blocks_iff.1 hm, rfl⟩
  · rintro ⟨block, hf, rfl⟩
    exact ⟨(a, block), c.wellFormed.mem_blocks_iff.2 hf, rfl⟩

/-! ### What one operation preserves -/

/-- An event that hands out nothing leaves retired addresses retired. -/
theorem retired_cons {a : Address} (h : s.Retired a) {registry : Buffers} {e : Event}
    (he : e.answer ≠ .block a) : History.Retired ⟨registry, e :: s.events⟩ a := by
  obtain ⟨later, n, earlier, hevents, hissued, hlater⟩ := h
  refine ⟨e :: later, n, earlier, ?_, hissued, ?_⟩
  · rw [hevents]
    rfl
  · intro e' hm
    rcases List.mem_cons.1 hm with rfl | hm
    · exact he
    · exact hlater e' hm

/-- An event that leaves the registry as it is and neither hands out nor frees anything. -/
theorem idle (c : Consistent s) {e : Event} (ha : ∀ a, e.answer ≠ .block a)
    (ho : e.note s.out = s.out) : Consistent ⟨s.registry, e :: s.events⟩ where
  wellFormed := c.wellFormed
  out_eq := ho.trans c.out_eq
  issued := by
    intro a hm
    obtain ⟨e, he, h⟩ := c.issued a hm
    exact ⟨e, List.mem_cons_of_mem _ he, h⟩
  retired := fun a hm => retired_cons (c.retired a hm) (ha a)

/-- An event that hands out a block. -/
theorem enter (c : Consistent s) {block : Block} {e : Event} (ha : a ∉ s.registry.addresses)
    (hn : s.registry.inUse + block.length ≤ s.registry.limit) (he : e.answer = .block a)
    (ho : e.note s.out = (a, block.contents) :: s.out) :
    Consistent ⟨s.registry.enter a block, e :: s.events⟩ where
  wellFormed := c.wellFormed.enter ha hn
  out_eq := by
    show e.note s.out = _
    rw [ho, c.out_eq]
    rfl
  issued := by
    intro b hm
    rcases List.mem_cons.1 hm with rfl | hm
    · exact ⟨e, List.mem_cons_self, he⟩
    · obtain ⟨e, he, h⟩ := c.issued b hm
      exact ⟨e, List.mem_cons_of_mem _ he, h⟩
  retired := by
    intro b hm
    obtain ⟨hm, hne⟩ := List.mem_filter.1 hm
    refine retired_cons (c.retired b hm) ?_
    rw [he]
    intro h
    simp [Answer.block.inj h] at hne

/-- An event that frees a block. -/
theorem remove (c : Consistent s) {block : Block} (hf : s.registry.find? a = some block) :
    Consistent ⟨s.registry.remove a block.length,
      ⟨.release a, .freed block.length⟩ :: s.events⟩ where
  wellFormed := c.wellFormed.remove hf
  out_eq := by
    show s.out.filter _ = _
    rw [c.out_eq, List.filter_map]
    rfl
  issued := by
    intro b hm
    rw [addresses_remove] at hm
    obtain ⟨e, he, h⟩ := c.issued b (List.mem_filter.1 hm).1
    exact ⟨e, List.mem_cons_of_mem _ he, h⟩
  retired := by
    intro b hm
    rcases List.mem_cons.1 hm with rfl | hm
    · exact ⟨[], block.length, s.events, rfl, c.issued b (mem_addresses_of_find? hf),
        fun _ hm => (List.not_mem_nil hm).elim⟩
    · split at hm
      · cases hm
      · exact retired_cons (c.retired b hm) (by simp)

/-- A write to a block. -/
theorem store (c : Consistent s) (a : Address) (bytes : List UInt8) :
    Consistent ⟨s.registry.store a bytes, ⟨.write a bytes, .done⟩ :: s.events⟩ where
  wellFormed := c.wellFormed.store a bytes
  out_eq := by
    show s.out.map _ = _
    rw [c.out_eq, Buffers.store, List.map_map, List.map_map]
    refine List.map_congr_left fun entry _ => ?_
    by_cases h : entry.1 = a
    · simp [h]
    · simp [h]
  issued := by
    intro b hm
    rw [addresses_store] at hm
    obtain ⟨e, he, h⟩ := c.issued b hm
    exact ⟨e, List.mem_cons_of_mem _ he, h⟩
  retired := fun b hm => retired_cons (c.retired b hm) (by simp)

/-- A refused allocation. -/
theorem refused (c : Consistent s) (e : AllocError) (hg : ∀ a bytes, op ≠ .write a bytes) :
    Consistent ⟨s.registry, ⟨op, .full e⟩ :: s.events⟩ := by
  refine c.idle (fun _ => by simp) ?_
  cases op with
  | write a bytes => exact absurd rfl (hg a bytes)
  | _ => rfl

/-- A granted block, which may be filled at once. -/
theorem grant (c : Consistent s) {n : Nat} (hn : s.registry.Affords n)
    (h : s.registry.Affords n → a ∉ s.addresses ∧ s.total + n ≤ wordLimit) {written : List UInt8}
    (ho : Event.note ⟨op, .block a⟩ s.out = (a, (⟨n, written⟩ : Block).contents) :: s.out) :
    Consistent ⟨s.registry.enter a ⟨n, written⟩, ⟨op, .block a⟩ :: s.events⟩ := by
  obtain ⟨ha, hw⟩ := h hn
  rw [c.addresses_eq] at ha
  rw [c.total_eq] at hw
  exact c.enter ha (c.wellFormed.inUse_add_le hn hw) rfl ho

/-- An operation keeps the registry and the record in step. -/
theorem step (c : Consistent s) (h : s.Sound op) : Consistent (s.step op) := by
  unfold History.step
  cases op with
  | allocate n host =>
    rw [perform_allocate]
    by_cases hn : s.registry.Affords n
    · rw [if_pos hn]
      cases host with
      | none => exact c.refused _ (by simp)
      | some a => exact c.grant hn h (by rw [Block.contents_nil]; rfl)
    · rw [if_neg hn]
      exact c.refused _ (by simp)
  | allocateFrom bytes host =>
    rw [perform_allocateFrom]
    by_cases hn : s.registry.Affords bytes.length
    · rw [if_pos hn]
      cases host with
      | none => exact c.refused _ (by simp)
      | some a =>
        have ha : a ∉ s.registry.addresses := c.addresses_eq ▸ (h hn).1
        simp only [store_enter ha]
        exact c.grant hn h (by rw [Block.contents_of_length rfl]; rfl)
    · rw [if_neg hn]
      exact c.refused _ (by simp)
  | contents a =>
    rw [perform_contents]
    cases s.registry.find? a with
    | none => exact c.idle (by simp) rfl
    | some block => exact c.idle (by simp) rfl
  | lengthOf a => exact c.idle (by simp) rfl
  | release a =>
    rw [perform_release]
    cases hf : s.registry.find? a with
    | none => exact c.idle (by simp) rfl
    | some block => exact c.remove hf
  | write a bytes => exact c.store a bytes

end Consistent

/-- As long as the host keeps to its part, the registry is what its record says. -/
theorem Consistent.foldl (c : Consistent s) {ops : List Op} (h : s.AllSound ops) :
    Consistent (ops.foldl History.step s) := by
  induction ops generalizing s with
  | nil => exact c
  | cons op ops ih => exact ih (c.step h.1) h.2

theorem consistent_run {limit : Nat} {ops : List Op}
    (h : (History.start limit).AllSound ops) : Consistent (History.run limit ops) :=
  (Consistent.start limit).foldl h

/-! ## The registry as a map -/

theorem limit_perform (r : Buffers) (op : Op) : (r.perform op).2.limit = r.limit := by
  cases op with
  | allocate n host =>
    rw [perform_allocate]
    split
    · cases host <;> rfl
    · rfl
  | allocateFrom bytes host =>
    rw [perform_allocateFrom]
    split
    · cases host <;> rfl
    · rfl
  | contents a =>
    rw [perform_contents]
    cases r.find? a <;> rfl
  | lengthOf a => rfl
  | release a =>
    rw [perform_release]
    cases r.find? a <;> rfl
  | write a bytes => rfl

/-- An allocation that fails changes nothing. -/
theorem perform_of_full {e : AllocError} (he : (r.perform op).1 = .full e) :
    (r.perform op).2 = r := by
  cases op with
  | allocate n host =>
    rw [perform_allocate] at he ⊢
    split at he
    next hn =>
      rw [if_pos hn]
      cases host with
      | none => rfl
      | some a => cases he
    next hn => rw [if_neg hn]
  | allocateFrom bytes host =>
    rw [perform_allocateFrom] at he ⊢
    split at he
    next hn =>
      rw [if_pos hn]
      cases host with
      | none => rfl
      | some a => cases he
    next hn => rw [if_neg hn]
  | contents a =>
    rw [perform_contents]
    cases r.find? a <;> rfl
  | lengthOf a => rfl
  | release a =>
    rw [perform_release] at he
    split at he <;> cases he
  | write a bytes => cases he

theorem limit_run (limit : Nat) (ops : List Op) : (History.run limit ops).registry.limit = limit := by
  suffices ∀ s : History, (ops.foldl History.step s).registry.limit = s.registry.limit from this _
  intro s
  induction ops generalizing s with
  | nil => rfl
  | cons op ops ih => exact (ih (s.step op)).trans (limit_perform s.registry op)

/-- What a registry shows after some operations, in terms of the record of what came of them. -/
structure ActsAsMap (limit : Nat) (s : History) : Prop where
  /-- No address is out twice. -/
  nodup : s.addresses.Nodup
  inUse_eq : s.registry.inUse = s.total
  inUse_le : s.registry.inUse ≤ limit
  /-- A block is granted when the budget affords it and the host has one. -/
  allocate : ∀ n host, (s.registry.perform (.allocate n host)).1 =
    if min (s.total + n) wordLimit ≤ limit then
      match host with
      | some a => .block a
      | none => .full (.outOfMemory n)
    else .full (.bufferLimit n s.total limit)
  /-- An allocation that fails changes nothing. -/
  full : ∀ op e, (s.registry.perform op).1 = .full e → (s.registry.perform op).2 = s.registry
  /-- A block that is out holds what the record says, and looking at it changes nothing. -/
  contents : ∀ a bytes, (a, bytes) ∈ s.out →
    s.registry.perform (.contents a) = (.bytes bytes, s.registry)
  lengthOf : ∀ a, s.registry.perform (.lengthOf a) =
    (.length? ((s.out.lookup a).map List.length), s.registry)
  /-- Exactly the blocks that are out can be released. -/
  release : ∀ a n, (s.registry.perform (.release a)).1 = .freed n ↔
    ∃ bytes, (a, bytes) ∈ s.out ∧ bytes.length = n
  /-- A release removes the block and no other. -/
  removed : ∀ a ∈ s.addresses, ∀ b, (s.registry.perform (.release a)).2.find? b =
    if b = a then none else s.registry.find? b
  /-- Naming any other address is misuse and changes nothing; it is called a second release only
  for an address that is retired. -/
  misuse : ∀ a, a ∉ s.addresses → ∃ v,
    s.registry.perform (.release a) = (.misuse v, s.registry) ∧
    s.registry.perform (.contents a) = (.misuse v, s.registry) ∧
    (v = .unknownBuffer a ∨ v = .doubleRelease a ∧ s.Retired a)
  /-- No operation on another block, and no allocation, shows in a block that is out. -/
  others : ∀ op, s.Sound op → ∀ a ∈ s.addresses, op.target? ≠ some a →
    (s.registry.perform op).2.contents a = s.registry.contents a

namespace Consistent

theorem find?_of_mem (c : Consistent s) (ha : a ∈ s.addresses) :
    ∃ block, s.registry.find? a = some block := by
  rw [c.addresses_eq] at ha
  exact Option.ne_none_iff_exists'.1 fun hn => find?_eq_none_iff.1 hn ha

theorem find?_of_not_mem (c : Consistent s) (ha : a ∉ s.addresses) :
    s.registry.find? a = none := by
  rw [c.addresses_eq] at ha
  exact find?_eq_none_iff.2 ha

/-- An address that is not out is unknown, unless it is remembered as released. -/
theorem missing_eq (c : Consistent s) (a : Address) :
    s.registry.missing a = .unknownBuffer a ∨
      s.registry.missing a = .doubleRelease a ∧ s.Retired a := by
  unfold missing
  split
  next h => exact .inr ⟨rfl, c.retired a (List.contains_iff_mem.1 h)⟩
  next => exact .inl rfl

theorem others (c : Consistent s) (h : s.Sound op) (ha : a ∈ s.addresses)
    (ht : op.target? ≠ some a) :
    (s.registry.perform op).2.contents a = s.registry.contents a := by
  suffices (s.registry.perform op).2.find? a = s.registry.find? a by
    obtain ⟨block, hf⟩ := c.find?_of_mem ha
    unfold Buffers.contents
    rw [this, hf]
  cases op with
  | allocate n host =>
    rw [perform_allocate]
    by_cases hn : s.registry.Affords n
    · rw [if_pos hn]
      cases host with
      | none => rfl
      | some b =>
        have hb : a ≠ b := fun e => (h hn).1 (e ▸ ha)
        exact (find?_enter ..).trans (if_neg hb)
    · rw [if_neg hn]
  | allocateFrom bytes host =>
    rw [perform_allocateFrom]
    by_cases hn : s.registry.Affords bytes.length
    · rw [if_pos hn]
      cases host with
      | none => rfl
      | some b =>
        have hb : a ≠ b := fun e => (h hn).1 (e ▸ ha)
        show ((s.registry.enter b _).store b bytes).find? a = _
        rw [find?_store, if_neg hb, find?_enter, if_neg hb]
    · rw [if_neg hn]
  | contents b =>
    rw [perform_contents]
    cases s.registry.find? b <;> rfl
  | lengthOf b => rfl
  | release b =>
    have hb : a ≠ b := fun e => ht (congrArg some e.symm)
    rw [perform_release]
    cases s.registry.find? b with
    | none => rfl
    | some block => exact (find?_remove ..).trans (if_neg hb)
  | write b bytes =>
    exact (find?_store ..).trans (if_neg fun e => ht (congrArg some e.symm))

end Consistent

/-- As long as the host keeps to its part, the registry is the map that its record says. -/
theorem registry_is_its_record (limit : Nat) (ops : List Op) (h : (History.start limit).AllSound ops) :
    ActsAsMap limit (History.run limit ops) := by
  have c := consistent_run h
  have hlimit := limit_run limit ops
  generalize History.run limit ops = s at c hlimit ⊢
  constructor
  case nodup =>
    rw [c.addresses_eq]
    exact c.wellFormed.addresses_nodup
  case inUse_eq => rw [c.total_eq, c.wellFormed.inUse_eq]
  case inUse_le => exact hlimit ▸ c.wellFormed.inUse_le
  case allocate =>
    intro n host
    rw [c.total_eq, ← c.wellFormed.inUse_eq, ← hlimit, perform_allocate]
    by_cases hn : min (s.registry.inUse + n) wordLimit ≤ s.registry.limit
    · rw [if_pos (show s.registry.Affords n from hn), if_pos hn]
      cases host <;> rfl
    · rw [if_neg (show ¬ s.registry.Affords n from hn), if_neg hn]
  case full => exact fun op e he => perform_of_full he
  case contents =>
    intro a bytes hm
    obtain ⟨block, hf, rfl⟩ := c.mem_out_iff.1 hm
    rw [perform_contents, hf]
  case lengthOf =>
    intro a
    rw [c.lookup_out, perform, lengthOf?, Option.map_map]
    congr 3
    exact funext fun block => (Block.length_contents block).symm
  case release =>
    intro a n
    rw [perform_release]
    simp only [c.mem_out_iff]
    cases s.registry.find? a with
    | none => simp
    | some block => simp
  case removed =>
    intro a ha b
    obtain ⟨block, hf⟩ := c.find?_of_mem ha
    rw [perform_release, hf]
    exact find?_remove ..
  case misuse =>
    intro a ha
    have hf := c.find?_of_not_mem ha
    refine ⟨s.registry.missing a, ?_, ?_, c.missing_eq a⟩
    · rw [perform_release, hf]
    · rw [perform_contents, hf]
  case others => exact fun op h a ha ht => c.others h ha ht

/-- Blocks of no length, a block beyond the budget, one that the host does not have, an address that
is released twice and one that is used again. -/
theorem registry_is_its_record_through_second_release :
    let ops : List Op :=
      [.allocate 0 (some 1), .allocate 0 (some 2), .allocateFrom [3, 4] (some 3), .write 3 [5],
        .allocate 9 (some 4), .allocate 1 none, .release 1, .release 1, .contents 7,
        .allocate 1 (some 1), .release 3, .lengthOf 3]
    (History.start 8).AllSound ops ∧ ActsAsMap 8 (History.run 8 ops) ∧
      (History.run 8 ops).out = [(1, [0]), (2, [])] := by
  intro ops
  have h : (History.start 8).AllSound ops := by decide
  exact ⟨h, registry_is_its_record 8 ops h, by decide⟩

end GuestBoundary.Buffers
