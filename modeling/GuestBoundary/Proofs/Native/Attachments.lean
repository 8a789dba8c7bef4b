import GuestBoundary.Guest.Bootstrap
import GuestBoundary.Proofs.Native.Frames
import Mathlib.Data.List.Perm.Subperm

/-!
# Local references across attachments

Every attachment has a table of its own, and every table starts with the same generations.
`Attachments.run` lets threads come and go and work on their references, in any order, and keeps the
history of each table next to the state.  So handles of one attachment are the words that another
one gives out as well: the handle of another attachment stands for nothing exactly if no reference
of the present one lives under the same word (`foreign_handles_dead_iff`).
-/

namespace GuestBoundary

/-! ## The first reference of a table -/

namespace Locals

variable {α : Type} {t t' : Locals α} {h : Handle}

/-- What every table gives out first. -/
def firstHandle : Handle := .encode 0 0 .local

/-- No reference was ever made. -/
structure Untouched (t : Locals α) : Prop where
  slots : t.slots = #[]
  generations : t.generations = #[]
  free : t.free = []

namespace Untouched

theorem empty (limit : Nat) : (Locals.empty limit : Locals α).Untouched := ⟨rfl, rfl, rfl⟩

theorem isLive_eq_false (ht : t.Untouched) (h : Handle) : t.isLive h = false := by
  rw [isLive, resolve, ht.slots]
  simp

theorem create (ht : t.Untouched) {o : α} (hc : t.create (some o) = .ok (h, t')) :
    h = firstHandle := by
  rw [Locals.create, ht.free] at hc
  dsimp only at hc
  split at hc
  · cases hc
  · cases hc
    simp [handleAt, place, ht.slots, ht.generations, firstHandle]

theorem close? (ht : t.Untouched) (hc : t.close? = some t') : t'.Untouched := by
  unfold Locals.close? at hc
  split at hc
  · cases hc
  · cases hc
    constructor
    · simp [ht.slots]
    · simp [ht.generations, retire]
    · simp [ht.slots, emptySlots]

theorem reset (ht : t.Untouched) : t.reset.Untouched where
  slots := rfl
  generations := by simp [Locals.reset, ht.generations, retire]
  free := rfl

/-- The first handle is given out, or none. -/
theorem step {s : History α} (ht : s.table.Untouched) (hi : s.ledger.issued = []) (op : Op α) :
    ((s.step op).table.Untouched ∧ (s.step op).ledger.issued = []) ∨
      (s.step op).ledger.issued = [firstHandle] := by
  obtain ⟨t, l, released⟩ := s
  dsimp only at ht hi
  cases op with
  | create o =>
    cases o with
    | none => exact .inl ⟨ht, hi⟩
    | some o =>
      cases hc : t.create (some o) with
      | ok p =>
        right
        simp [History.step, perform, hc, Ledger.note, Ledger.own, hi, ht.create hc]
      | error e => exact .inl (by simp [History.step, perform, hc, Ledger.note, hi, ht])
  | delete h =>
    left
    simp [History.step, perform, delete?_eq, ht.isLive_eq_false, Ledger.note, hi, ht]
  | push n =>
    left
    simp only [History.step, perform, push_eq]
    cases t.hasRoom n with
    | true => exact ⟨⟨ht.slots, ht.generations, rfl⟩, hi⟩
    | false => exact ⟨ht, hi⟩
  | ensure n =>
    left
    simp only [History.step, perform, ensure_eq]
    cases t.hasRoom n with
    | true => exact ⟨⟨ht.slots, ht.generations, ht.free⟩, hi⟩
    | false => exact ⟨ht, hi⟩
  | pop result =>
    cases hclose : t.close? with
    | none =>
      left
      simp only [History.step, perform, pop?, hclose, Option.map_none]
      cases result <;> exact ⟨ht, hi⟩
    | some t₁ =>
      have ht₁ := ht.close? hclose
      cases result with
      | none =>
        left
        simp only [History.step, perform, pop?, hclose, Option.map_some, create_none]
        exact ⟨ht₁, hi⟩
      | some o =>
        cases hc : t₁.create (some o) with
        | ok p =>
          right
          simp [History.step, perform, pop?, hclose, hc, Ledger.note, Ledger.own, Ledger.close, hi,
            ht₁.create hc]
        | error e =>
          left
          simp [History.step, perform, pop?, hclose, hc, Ledger.note, Ledger.close, hi, ht₁]
  | reset => exact .inl ⟨ht.reset, hi⟩

end Untouched

/-- An operation gives out one handle, whose reference then lives, or none. -/
theorem Ledger.issued_note (l : Ledger α) (op : Op α) (a : Answer) :
    (l.note op a).issued = l.issued ∨
      ∃ h, h ∈ (l.note op a).handles ∧ (l.note op a).issued = h :: l.issued := by
  cases op with
  | create o => rcases o with _ | o <;> cases a <;> simp [note, own, handles]
  | pop o => rcases o with _ | o <;> cases a <;> simp [note, own, handles, close]
  | delete h => cases a <;> exact .inl rfl
  | push n => cases a <;> exact .inl rfl
  | ensure n => cases a <;> exact .inl rfl
  | reset => cases a <;> exact .inl rfl

/-- Every table gives out the same handle first. -/
theorem first_issued (limit : Nat) (ops : List (Op α)) :
    (History.run limit ops).ledger.issued = [] ∨
      (History.run limit ops).ledger.issued.getLast? = some firstHandle := by
  suffices h : ((History.run limit ops).table.Untouched ∧
      (History.run limit ops).ledger.issued = []) ∨
      (History.run limit ops).ledger.issued.getLast? = some firstHandle from h.imp And.right id
  induction ops using List.reverseRecOn with
  | nil => exact .inl ⟨.empty limit, rfl⟩
  | append_singleton ops op ih =>
    rw [History.run_concat]
    rcases ih with ⟨ht, hi⟩ | hlast
    · exact (ht.step hi op).imp id fun h => by rw [h]; rfl
    · right
      rcases (History.run limit ops).ledger.issued_note op
        ((History.run limit ops).table.perform op).1 with hsame | ⟨h, -, hnew⟩
      · exact (congrArg List.getLast? hsame).trans hlast
      · refine (congrArg List.getLast? hnew).trans ?_
        rw [List.getLast?_cons, hlast]
        rfl

/-- Only handles of local references are given out. -/
theorem tag_of_mem_issued {limit : Nat} {ops : List (Op α)}
    (hlt : ∀ i, (History.run limit ops).released i < Handle.generations) {h : Handle}
    (hh : h ∈ (History.run limit ops).ledger.issued) : h.tag = .local := by
  induction ops using List.reverseRecOn with
  | nil => cases hh
  | append_singleton ops op ih =>
    have hbefore := ih (released_prefix_lt hlt)
    have c := consistent_run limit _ hlt
    rw [History.run_concat] at hh c
    rcases (History.run limit ops).ledger.issued_note op
      ((History.run limit ops).table.perform op).1 with hsame | ⟨h', hlive, hnew⟩
    · exact hbefore (hsame ▸ hh)
    · rcases List.mem_cons.1 (hnew ▸ hh) with rfl | hh
      · obtain ⟨o, ho⟩ := isLive_iff.1 ((c.mem_handles_iff _).1 hlive)
        exact (resolve_eq_some_iff.1 ho).1
      · exact hbefore hh

/-- A reference lives under a word exactly if its slot is in use and was released as often as the
word counts. -/
theorem Consistent.mem_handles_iff_released {s : History α} (c : Consistent s)
    (htag : h.tag = .local) :
    h ∈ s.ledger.handles ↔
      (s.table.occupant? h.index).isSome ∧ s.released h.index = h.generation := by
  rw [c.mem_handles_iff, isLive_iff, Option.isSome_iff_exists]
  have hgen := c.generation h.index
  constructor
  · rintro ⟨o, ho⟩
    obtain ⟨-, hg, ho⟩ := resolve_eq_some_iff.1 ho
    rw [hg, Option.getD_some] at hgen
    exact ⟨⟨o, ho⟩, hgen.symm⟩
  · rintro ⟨⟨o, ho⟩, hg⟩
    have hsize := lt_of_occupant?_eq_some ho
    have hle := c.wellFormed.size_le_generations
    refine ⟨o, resolve_eq_some_iff.2 ⟨htag, ?_, ho⟩⟩
    rw [Array.getElem?_eq_getElem (by omega), Option.getD_some] at hgen
    rw [Array.getElem?_eq_getElem (by omega), hgen, hg]

end Locals

namespace Native

open Interface

variable {H ε α : Type}

/-! ## What happens -/

/-- What the running thread does to its references. -/
inductive Referral where
  | create (o : Option ObjectRef)
  | delete (h : Handle)
  | push (n : Nat)
  | pop (result : Option ObjectRef)
  | ensure (n : Int32)

namespace Referral

/-- Does it. -/
def run : Referral → Entry H Unit
  | create o => discard (Entry.newLocal o)
  | delete h => deleteLocalRef h
  | push n => Entry.pushFrame n
  | pop result => discard (Entry.popFrame result)
  | ensure n => ensureLocalCapacity n

/-- The operation on the table, unless the argument makes no sense. -/
def op? : Referral → Option (Locals.Op ObjectRef)
  | create o => some (.create o)
  | delete h => some (.delete h)
  | push n => some (.push n)
  | pop result => some (.pop result)
  | ensure n => if n < 0 then none else some (.ensure n.toInt.toNat)

end Referral

/-- The state in which an action ends. -/
def final : Outcome H ε α → World H
  | .ok _ w | .error _ w | .panic _ w | .halt _ w => w

/-- The number of an attached thread's attachment and its table. -/
def table? (t : Thread) : Option (Nat × Locals ObjectRef) :=
  t.attachment.map fun a => (a.serial, a.locals)

/-- The tables of all threads. -/
def tables (w : World H) : List (Nat × Locals ObjectRef) := w.allThreads.filterMap table?

/-- Something else that happens, and leaves the tables alone. -/
structure Bystander (H : Type) where
  act : World H → World H
  tables : ∀ w, tables (act w) = tables w
  attachments : ∀ w, (act w).attachments = w.attachments

/-- What happens to threads and their references. -/
inductive ThreadEvent (H : Type) where
  | attach
  | detach
  | refer (r : Referral)
  /-- A new thread runs, and the running one waits. -/
  | start
  /-- The running thread waits in the place of one that waited. -/
  | resume (i : Nat)
  /-- The running thread ends, and the innermost one goes on. -/
  | finish
  | aside (b : Bystander H)

/-- The state after something happened. -/
def happen (w : World H) : ThreadEvent H → World H
  | .attach =>
    match w.bridge with
    | some b => (w.attach b).2
    | none => w
  | .detach => w.detach.2
  | .refer r => final (r.run w)
  | .start =>
    { w with
      thread := ⟨⟨w.threads⟩, 0, none⟩
      waiting := w.thread :: w.waiting
      threads := w.threads + 1 }
  | .resume i =>
    match w.waiting[i]? with
    | some t => { w with thread := t, waiting := w.waiting.set i w.thread }
    | none => w
  | .finish =>
    match w.waiting with
    | t :: waiting => World.releaseBridge { w with thread := t, waiting }
    | [] => w
  | .aside b => b.act w

/-- A state, with the history of the table of each attachment. -/
structure Attachments (H : Type) where
  world : World H
  history : Nat → Locals.History ObjectRef

namespace Attachments

/-- The histories after something happened. -/
def note (s : Attachments H) : ThreadEvent H → Nat → Locals.History ObjectRef
  | .attach =>
    match s.world.attachment, s.world.bridge with
    | none, some b =>
      Function.update s.history s.world.attachments (.start b.config.maxLocals.toNat)
    | _, _ => s.history
  | .refer r =>
    match s.world.attachment, r.op? with
    | some a, some op => Function.update s.history a.serial ((s.history a.serial).step op)
    | _, _ => s.history
  | _ => s.history

def step (s : Attachments H) (e : ThreadEvent H) : Attachments H := ⟨happen s.world e, s.note e⟩

/-- What happens in order, from a state on in which nobody is attached. -/
def run (w : World H) (events : List (ThreadEvent H)) : Attachments H :=
  events.foldl step ⟨w, fun _ => .start 0⟩

theorem run_concat (w : World H) (events : List (ThreadEvent H)) (e : ThreadEvent H) :
    run w (events ++ [e]) = (run w events).step e := List.foldl_append

/-- Something that happens releases a slot at most once. -/
theorem released_note_le (s : Attachments H) (e : ThreadEvent H) (k i : Nat) :
    (s.note e k).released i ≤ (s.history k).released i + 1 := by
  have hsame : (s.history k).released i ≤ (s.history k).released i + 1 := Nat.le_succ _
  cases e with
  | attach =>
    cases ha : s.world.attachment with
    | some a => simp [note, ha]
    | none =>
      cases hb : s.world.bridge with
      | none => simp [note, ha, hb]
      | some b =>
        by_cases hk : k = s.world.attachments
        · simp [note, ha, hb, hk, Locals.History.start]
        · simp [note, ha, hb, hk]
  | refer r =>
    cases ha : s.world.attachment with
    | none => simp [note, ha]
    | some a =>
      cases hop : r.op? with
      | none => simp [note, ha, hop]
      | some op =>
        by_cases hk : k = a.serial
        · subst hk
          simp only [note, ha, hop, Function.update_self, Locals.History.step]
          apply Nat.add_le_add_left
          split <;> omega
        · simp [note, ha, hop, hk]
  | _ => exact hsame

/-- A slot is released no more often than something happens. -/
theorem released_run_le_length (w : World H) (events : List (ThreadEvent H)) (k i : Nat) :
    ((run w events).history k).released i ≤ events.length := by
  induction events using List.reverseRecOn with
  | nil => exact Nat.le_refl _
  | append_singleton events e ih =>
    rw [run_concat, List.length_append, List.length_singleton]
    exact Nat.le_trans (released_note_le _ e k i) (Nat.succ_le_succ ih)

end Attachments

/-! ## What happens to tables -/

section Tables

variable {w : World H} {a : Attachment}

theorem tables_of_attachment (ha : w.attachment = some a) :
    tables w = (a.serial, a.locals) :: w.waiting.filterMap table? := by
  have hthread : table? w.thread = some (a.serial, a.locals) := congrArg (Option.map _) ha
  exact List.filterMap_cons_some hthread

theorem tables_setAttachment (w : World H) (a : Attachment) :
    tables (w.setAttachment (some a)) =
      (a.serial, a.locals) :: w.waiting.filterMap table? := rfl

theorem tables_of_none (ha : w.attachment = none) :
    tables w = w.waiting.filterMap table? := by
  have hthread : table? w.thread = none := congrArg (Option.map _) ha
  exact List.filterMap_cons_none hthread

theorem tables_waiting_sublist (w : World H) : (w.waiting.filterMap table?).Sublist (tables w) :=
  (List.sublist_cons_self _ _).filterMap _

theorem tables_releaseBridge (w : World H) : tables w.releaseBridge = tables w := by
  unfold World.releaseBridge
  split <;> rfl

theorem attachments_releaseBridge (w : World H) :
    w.releaseBridge.attachments = w.attachments := by
  unfold World.releaseBridge
  split <;> rfl

theorem tables_detach_sublist (w : World H) : (tables w.detach.2).Sublist (tables w) := by
  unfold World.detach
  split
  · exact .refl _
  · split
    · exact .refl _
    · rw [tables_releaseBridge]
      exact tables_waiting_sublist w

theorem attachments_detach (w : World H) : w.detach.2.attachments = w.attachments := by
  unfold World.detach
  split
  · rfl
  · split
    · rfl
    · exact attachments_releaseBridge _

theorem tables_resume_perm (w : World H) (i : Nat) :
    (tables (happen w (.resume i))).Perm (tables w) := by
  rw [happen]
  split
  next t ht =>
    obtain ⟨hi, rfl⟩ := List.getElem?_eq_some_iff.1 ht
    apply List.Perm.filterMap
    calc w.waiting[i] :: w.waiting.set i w.thread
        |>.Perm (w.waiting[i] :: w.thread :: w.waiting.eraseIdx i) :=
          (List.set_perm_cons_eraseIdx hi _).cons _
      _ |>.Perm (w.thread :: w.waiting[i] :: w.waiting.eraseIdx i) := .swap ..
      _ |>.Perm (w.thread :: w.waiting) := (List.getElem_cons_eraseIdx_perm hi).cons _
  next => exact .refl _

theorem attachments_resume (w : World H) (i : Nat) :
    (happen w (.resume i)).attachments = w.attachments := by
  rw [happen]
  split <;> rfl

/-! ### References of the running thread -/

theorem setAttachment_self (ha : w.attachment = some a) : w.setAttachment (some a) = w := by
  rw [← ha]
  rfl

theorem final_onAttachment (ha : w.attachment = some a)
    (f : Attachment → Except EntryError (α × Attachment)) :
    final (Entry.onAttachment f w) =
      match f a with
      | .ok (_, a) => w.setAttachment (some a)
      | .error _ => w := by
  rw [onAttachment_eq ha]
  cases f a <;> rfl

theorem final_discard (act : Action H ε α) (w : World H) :
    final ((discard act : Action H ε Unit) w) = final (act w) := by
  show final (Action.andThen act _ w) = _
  unfold Action.andThen
  cases act w <;> rfl

theorem capacity_neg {n : Int32} (hn : n < 0) (w : World H) :
    ∃ e, (Entry.capacity n : Entry H Nat) w = .error e w := by
  rw [Entry.capacity, if_pos hn]
  exact ⟨_, rfl⟩

theorem capacity_nonneg {n : Int32} (hn : ¬ n < 0) (w : World H) :
    (Entry.capacity n : Entry H Nat) w = .ok n.toInt.toNat w := by
  rw [Entry.capacity, if_neg hn]
  rfl

/-- A thread that is not attached has no references. -/
theorem final_run_of_none (ha : w.attachment = none) (r : Referral) : final (r.run w) = w := by
  cases r with
  | create o =>
    rw [Referral.run, final_discard]
    exact congrArg final (onAttachment_of_none ha _)
  | delete h =>
    rw [Referral.run, deleteLocalRef]
    split
    · rfl
    · exact congrArg final (onAttachment_of_none ha _)
  | push n => exact congrArg final (onAttachment_of_none ha _)
  | pop result =>
    rw [Referral.run, final_discard, Entry.popFrame, Action.bind_halt (onAttachment_of_none ha _)]
    rfl
  | ensure n =>
    rw [Referral.run, ensureLocalCapacity]
    by_cases hn : n < 0
    · obtain ⟨e, he⟩ := capacity_neg hn w
      rw [Action.bind_error he]
      rfl
    · rw [Action.bind_ok (capacity_nonneg hn w)]
      exact congrArg final (onAttachment_of_none ha _)

/-- What the running thread does is an operation on its table, or nothing. -/
theorem final_run (ha : w.attachment = some a) (r : Referral) :
    final (r.run w) =
      match r.op? with
      | some op => w.setAttachment (some { a with locals := (a.locals.perform op).2 })
      | none => w := by
  have hself := setAttachment_self ha
  cases r with
  | create o =>
    rw [Referral.run, final_discard, Entry.newLocal, final_onAttachment ha]
    simp only [Referral.op?, Locals.perform]
    cases a.locals.create o with
    | ok p => rfl
    | error e => exact hself.symm
  | delete h =>
    rw [Referral.run, deleteLocalRef]
    simp only [Referral.op?, Locals.perform]
    split
    next hnull =>
      rw [Locals.delete?_eq, if_neg (not_isLive_of_isNull hnull)]
      exact hself.symm
    next =>
      rw [final_onAttachment ha]
      cases a.locals.delete? h with
      | some t => rfl
      | none => exact hself.symm
  | push n =>
    rw [Referral.run, Entry.pushFrame, final_onAttachment ha]
    simp only [Referral.op?, Locals.perform]
    cases a.locals.push n with
    | ok t => rfl
    | error e => exact hself.symm
  | pop result =>
    rw [Referral.run, final_discard, popFrame_eq ha]
    simp only [Referral.op?, Locals.perform]
    cases a.locals.pop? result with
    | none => exact hself.symm
    | some p =>
      obtain ⟨r, t⟩ := p
      cases r <;> rfl
  | ensure n =>
    rw [Referral.run, ensureLocalCapacity, Referral.op?]
    by_cases hn : n < 0
    · obtain ⟨e, he⟩ := capacity_neg hn w
      rw [Action.bind_error he, if_pos hn]
      rfl
    · rw [Action.bind_ok (capacity_nonneg hn w), final_onAttachment ha, if_neg hn]
      simp only [Locals.perform]
      cases a.locals.ensure n.toInt.toNat with
      | ok t => rfl
      | error e => exact hself.symm

end Tables

/-! ## Tables and their histories -/

namespace Attachments

/-- Every table is what its history says, no two attachments are one, and the next attachment is a
new one. -/
structure Consistent (s : Attachments H) : Prop where
  serial_lt : ∀ e ∈ tables s.world, e.1 < s.world.attachments
  table_eq : ∀ e ∈ tables s.world, e.2 = (s.history e.1).table
  distinct : ((tables s.world).map Prod.fst).Nodup
  recorded : ∀ k, ∃ limit ops, s.history k = .run limit ops

namespace Consistent

variable {s : Attachments H}

theorem start {w : World H} (hw : tables w = []) : Consistent ⟨w, fun _ => .start 0⟩ where
  serial_lt := by simp [hw]
  table_eq := by simp [hw]
  distinct := by simp [hw]
  recorded _ := ⟨0, [], rfl⟩

/-- Threads may trade places, and tables may go away. -/
theorem of_subperm (c : s.Consistent) {w : World H}
    (hsub : (tables w).Subperm (tables s.world))
    (hn : w.attachments = s.world.attachments) : Consistent ⟨w, s.history⟩ where
  serial_lt e he := hn ▸ c.serial_lt e (hsub.subset he)
  table_eq e he := c.table_eq e (hsub.subset he)
  distinct := by
    obtain ⟨l, hperm, hl⟩ := hsub
    exact (hperm.map _).nodup_iff.1 (c.distinct.sublist (hl.map _))
  recorded := c.recorded

/-- A new attachment comes with an empty table. -/
theorem enter (c : s.Consistent) {w : World H} {limit : Nat}
    (htables : tables w = (s.world.attachments, .empty limit) :: tables s.world)
    (hn : w.attachments = s.world.attachments + 1) :
    Consistent ⟨w, Function.update s.history s.world.attachments (.start limit)⟩ := by
  have hne : ∀ e ∈ tables s.world, e.1 ≠ s.world.attachments :=
    fun e he => Nat.ne_of_lt (c.serial_lt e he)
  constructor <;> dsimp only
  case serial_lt =>
    rw [htables, hn]
    exact List.forall_mem_cons.2
      ⟨Nat.lt_succ_self _, fun e he => Nat.lt_succ_of_lt (c.serial_lt e he)⟩
  case table_eq =>
    rw [htables]
    refine List.forall_mem_cons.2 ⟨by rw [Function.update_self]; rfl, fun e he => ?_⟩
    rw [Function.update_of_ne (hne e he)]
    exact c.table_eq e he
  case distinct =>
    rw [htables]
    refine List.nodup_cons.2 ⟨fun hmem => ?_, c.distinct⟩
    obtain ⟨e, he, heq⟩ := List.mem_map.1 hmem
    exact hne e he heq
  case recorded =>
    intro k
    by_cases hk : k = s.world.attachments
    · subst hk
      exact ⟨limit, [], Function.update_self ..⟩
    · rw [Function.update_of_ne hk]
      exact c.recorded k

/-- The running thread works on its table, and on no other one. -/
theorem work (c : s.Consistent) {a : Attachment} (ha : s.world.attachment = some a)
    (op : Locals.Op ObjectRef) :
    Consistent ⟨s.world.setAttachment (some { a with locals := (a.locals.perform op).2 }),
      Function.update s.history a.serial ((s.history a.serial).step op)⟩ := by
  obtain ⟨hlt, htable, hdistinct, hrecorded⟩ := c
  have htables := tables_setAttachment s.world { a with locals := (a.locals.perform op).2 }
  rw [tables_of_attachment ha] at hlt htable hdistinct
  obtain ⟨halt, hlt⟩ := List.forall_mem_cons.1 hlt
  obtain ⟨hatable, htable⟩ := List.forall_mem_cons.1 htable
  have hne : ∀ e ∈ s.world.waiting.filterMap table?, e.1 ≠ a.serial := fun e he heq =>
    (List.nodup_cons.1 hdistinct).1 (List.mem_map.2 ⟨e, he, heq⟩)
  constructor <;> dsimp only
  case serial_lt =>
    rw [htables]
    exact List.forall_mem_cons.2 ⟨halt, hlt⟩
  case table_eq =>
    rw [htables]
    refine List.forall_mem_cons.2 ⟨?_, fun e he => ?_⟩
    · dsimp only at hatable ⊢
      rw [Function.update_self, hatable]
      rfl
    · rw [Function.update_of_ne (hne e he)]
      exact htable e he
  case distinct =>
    rw [htables]
    exact hdistinct
  case recorded =>
    intro k
    by_cases hk : k = a.serial
    · subst hk
      obtain ⟨limit, ops, hrun⟩ := hrecorded a.serial
      refine ⟨limit, ops ++ [op], ?_⟩
      rw [Function.update_self, hrun, Locals.History.run_concat]
    · rw [Function.update_of_ne hk]
      exact hrecorded k

theorem attach (c : s.Consistent) : (s.step .attach).Consistent := by
  cases hb : s.world.bridge with
  | none =>
    have hstep : s.step .attach = s := by
      simp only [Attachments.step, happen, note, hb]
      cases s.world.attachment <;> rfl
    rwa [hstep]
  | some b =>
    cases ha : s.world.attachment with
    | some a =>
      have hstep : s.step .attach = s := by
        simp [Attachments.step, happen, note, hb, ha, World.attach]
      rwa [hstep]
    | none =>
      simp only [Attachments.step, happen, note, hb, ha, World.attach]
      refine c.enter ?_ rfl
      rw [tables_of_none ha]
      exact tables_setAttachment s.world ⟨_, _, _⟩

theorem refer (c : s.Consistent) (r : Referral) : (s.step (.refer r)).Consistent := by
  cases ha : s.world.attachment with
  | none =>
    simp only [Attachments.step, happen, note, ha, final_run_of_none ha]
    exact c
  | some a =>
    cases hop : r.op? with
    | none =>
      simp only [Attachments.step, happen, note, ha, hop, final_run ha]
      exact c
    | some op =>
      simp only [Attachments.step, happen, note, ha, hop, final_run ha]
      exact c.work ha op

/-- Whatever happens, tables stay what their histories say. -/
theorem step (c : s.Consistent) (e : ThreadEvent H) : (s.step e).Consistent := by
  cases e with
  | attach => exact c.attach
  | refer r => exact c.refer r
  | detach =>
    exact c.of_subperm (tables_detach_sublist _).subperm (attachments_detach _)
  | start => exact c.of_subperm (.refl _) rfl
  | resume i => exact c.of_subperm (tables_resume_perm _ i).subperm (attachments_resume _ i)
  | finish =>
    unfold Attachments.step happen
    cases hwaiting : s.world.waiting with
    | nil => exact c
    | cons t waiting =>
      refine c.of_subperm ?_ (attachments_releaseBridge _)
      rw [tables_releaseBridge]
      have hrest := tables_waiting_sublist s.world
      rw [hwaiting] at hrest
      exact hrest.subperm
  | aside b =>
    refine c.of_subperm ?_ (b.attachments _)
    rw [happen, b.tables]

end Consistent

theorem consistent_run {w : World H} (hw : tables w = []) (events : List (ThreadEvent H)) :
    (run w events).Consistent := by
  induction events using List.reverseRecOn with
  | nil => exact .start hw
  | append_singleton events e ih =>
    rw [run_concat]
    exact ih.step e

end Attachments

/-! ## Handles of other attachments -/

/-- A handle stands for nothing, and native code is told so. -/
structure Dead (w : World H) (h : Handle) : Prop where
  resolve : w.resolve h = none
  kind : getObjectRefType h w = .ok .invalid w

/-- What becomes of handles of other attachments in the attachment `a` of the running thread. -/
structure Foreign (s : Attachments H) (a : Attachment) : Prop where
  /-- The handle of another attachment is dead, unless a reference of this one lives under the same
  word. -/
  dead_iff : ∀ k, k ≠ a.serial → ∀ h ∈ (s.history k).ledger.issued,
    Dead s.world h ↔ h ∉ (s.history a.serial).ledger.handles
  /-- Then it stands for what that reference stands for. -/
  resolve_iff : ∀ k, k ≠ a.serial → ∀ h ∈ (s.history k).ledger.issued, ∀ o,
    s.world.resolve h = some o ↔
      ∃ r ∈ (s.history a.serial).ledger.live, r.handle = h ∧ r.object = o
  /-- That is so if its slot is in use and was released as often as in the other attachment when
  the handle was given out. -/
  held_iff : ∀ k, k ≠ a.serial → ∀ h ∈ (s.history k).ledger.issued,
    h ∈ (s.history a.serial).ledger.handles ↔
      (a.locals.occupant? h.index).isSome ∧
        (s.history a.serial).released h.index = h.generation
  /-- Until the first reference of this attachment is released, the first handle of every other one
  stands for its object. -/
  collides : ∀ k, k ≠ a.serial → (s.history k).ledger.issued ≠ [] →
    (s.history a.serial).ledger.issued ≠ [] → (s.history a.serial).released 0 = 0 →
      (s.history k).ledger.issued.getLast? = some Locals.firstHandle ∧
        ¬ Dead s.world Locals.firstHandle

variable {w : World H} {a : Attachment} {h : Handle}

theorem resolve_local (ha : w.attachment = some a) (htag : h.tag = .local) :
    w.resolve h = a.locals.resolve h := by
  rw [World.resolve, htag, ha]
  rfl

theorem refKind_local (ha : w.attachment = some a) (htag : h.tag = .local) :
    w.refKind h = if a.locals.isLive h then .local else .invalid := by
  rw [World.refKind, htag, ha]
  rfl

theorem dead_iff_not_isLive (ha : w.attachment = some a) (htag : h.tag = .local) :
    Dead w h ↔ a.locals.isLive h = false := by
  have hkind : getObjectRefType h w = .ok (w.refKind h) w := rfl
  constructor
  · intro hdead
    rw [Locals.isLive, ← resolve_local ha htag, hdead.resolve]
    rfl
  · intro hlive
    refine ⟨?_, ?_⟩
    · rw [resolve_local ha htag]
      exact Option.isSome_eq_false_iff.1 hlive |> Option.isNone_iff_eq_none.1
    · rw [hkind, refKind_local ha htag, hlive]
      rfl

/-- The handle of another attachment is dead exactly if no reference of the present attachment
lives under the same word; all tables give out the same words. -/
theorem foreign_handles_dead_iff {w₀ : World H} (hw : tables w₀ = [])
    (events : List (ThreadEvent H))
    (hlt : ∀ k i, ((Attachments.run w₀ events).history k).released i < Handle.generations)
    {a : Attachment} (ha : (Attachments.run w₀ events).world.attachment = some a) :
    Foreign (Attachments.run w₀ events) a := by
  have c := Attachments.consistent_run hw events
  generalize Attachments.run w₀ events = s at *
  have hledger : ∀ k, Locals.Consistent (s.history k) := by
    intro k
    obtain ⟨limit, ops, hrun⟩ := c.recorded k
    have hlt := hlt k
    rw [hrun] at hlt ⊢
    exact Locals.consistent_run limit ops hlt
  have htag : ∀ k, ∀ h ∈ (s.history k).ledger.issued, h.tag = .local := by
    intro k h hh
    obtain ⟨limit, ops, hrun⟩ := c.recorded k
    have hlt := hlt k
    rw [hrun] at hlt hh
    exact Locals.tag_of_mem_issued hlt hh
  have hfirst : ∀ k, (s.history k).ledger.issued ≠ [] →
      (s.history k).ledger.issued.getLast? = some Locals.firstHandle := by
    intro k hne
    obtain ⟨limit, ops, hrun⟩ := c.recorded k
    rw [hrun] at hne ⊢
    exact (Locals.first_issued limit ops).resolve_left hne
  have htable : a.locals = (s.history a.serial).table :=
    c.table_eq (a.serial, a.locals) (tables_of_attachment ha ▸ List.mem_cons_self)
  have hdead : ∀ h, h.tag = .local →
      (Dead s.world h ↔ h ∉ (s.history a.serial).ledger.handles) := by
    intro h htag
    rw [dead_iff_not_isLive ha htag, (hledger a.serial).mem_handles_iff, htable,
      Bool.not_eq_true]
  constructor
  case dead_iff => exact fun k _ h hh => hdead h (htag k h hh)
  case resolve_iff =>
    intro k _ h hh o
    rw [resolve_local ha (htag k h hh), htable]
    exact (hledger a.serial).resolve_iff h o
  case held_iff =>
    intro k _ h hh
    rw [(hledger a.serial).mem_handles_iff_released (htag k h hh), htable]
  case collides =>
    intro k _ hk hne hzero
    have hmem := List.mem_of_getLast? (hfirst a.serial hne)
    refine ⟨hfirst k hk, ?_⟩
    rw [hdead _ (htag a.serial _ hmem), not_not]
    refine ((hledger a.serial).stale _ hmem).resolve_right ?_
    rw [show Locals.firstHandle.index = 0 from by decide, hzero]
    exact Nat.not_lt_zero _

/-- A thread with an attachment in which it makes two references, and then another one in which it
makes one. -/
def twoVisits : List (ThreadEvent Unit) :=
  [.attach, .refer (.create (some ⟨0⟩)), .refer (.create (some ⟨1⟩)), .detach, .attach,
    .refer (.create (some ⟨2⟩))]

/-- One thread and a bridge. -/
def quietWorld : World Unit := (World.bare World.defaultCallDepth .growing ()).install .default

theorem foreign_handles_dead_iff_revisited :
    tables quietWorld = [] ∧
    (∀ k i, ((Attachments.run quietWorld twoVisits).history k).released i <
      Handle.generations) ∧
    ∃ a, (Attachments.run quietWorld twoVisits).world.attachment = some a ∧
      Foreign (Attachments.run quietWorld twoVisits) a := by
  have hlt : ∀ k i, ((Attachments.run quietWorld twoVisits).history k).released i <
      Handle.generations := fun k i =>
    Nat.lt_of_le_of_lt (Attachments.released_run_le_length quietWorld twoVisits k i) (by decide)
  obtain ⟨a, ha⟩ : ∃ a, (Attachments.run quietWorld twoVisits).world.attachment = some a :=
    ⟨_, rfl⟩
  exact ⟨rfl, hlt, a, ha, foreign_handles_dead_iff rfl twoVisits hlt ha⟩

/-- The handle of an attachment that is over stands for the object of another one. -/
theorem foreign_handle_not_dead :
    ¬ ∀ (w₀ : World Unit) (events : List (ThreadEvent Unit)), tables w₀ = [] →
      (∀ k i, ((Attachments.run w₀ events).history k).released i < Handle.generations) →
      ∀ a, (Attachments.run w₀ events).world.attachment = some a → ∀ k, k ≠ a.serial →
        ∀ h ∈ ((Attachments.run w₀ events).history k).ledger.issued,
          Dead (Attachments.run w₀ events).world h := by
  intro hall
  have hlt : ∀ k i, ((Attachments.run quietWorld twoVisits).history k).released i <
      Handle.generations := fun k i =>
    Nat.lt_of_le_of_lt (Attachments.released_run_le_length quietWorld twoVisits k i) (by decide)
  have hissued : Locals.firstHandle ∈
      ((Attachments.run quietWorld twoVisits).history 0).ledger.issued := by decide
  have hdead := hall quietWorld twoVisits rfl hlt _ rfl 0 (by decide) _ hissued
  have hresolve : (Attachments.run quietWorld twoVisits).world.resolve Locals.firstHandle =
      some ⟨2⟩ := by decide
  rw [hdead.resolve] at hresolve
  cases hresolve

end Native

end GuestBoundary
