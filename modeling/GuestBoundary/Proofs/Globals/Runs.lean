import GuestBoundary.Proofs.Globals.Owners

/-!
# Runs of operations on references

References come and go in any order: names and fields of objects are set to objects and forgotten, strong and weak global references are made and deleted, and whatever else the program
does goes on in between (`ReferenceOp`).  `Referring.run` performs such operations and keeps a
ledger of the table of global references.  As long as there is an index for every slot (`Fits`),
the ledger tells what the table holds (`Referring.consistent_run`), objects that are gone stay gone
(`Referring.isAlive_of_append`), and a reference is live until it is deleted
(`Referring.isLive_iff_not_deleted`).
-/

namespace GuestBoundary

variable {H : Type} {w : World H} {o : ObjectRef} {h : Handle}

/-! ## Operations on references -/

/-- Where a reference is taken from. -/
inductive Source where
  | named (name : String)
  | handle (h : Handle)

def Source.object? (w : World H) : Source → Option ObjectRef
  | .named name => (w.named.lookup name).join
  | .handle h => w.resolve h

/-- Something that leaves the table of global references alone and refers to nothing that is
gone. -/
structure Elsewhere (H : Type) where
  act : World H → World H
  globals_eq : ∀ w : World H, (act w).bridge.map (·.globals) = w.bridge.map (·.globals)
  honest : ∀ w : World H, w.Rooted → w.Honest (act w)

/-- What may happen to references. -/
inductive ReferenceOp (H : Type) where
  /-- Makes an object with references in its slots, and holds it by a name. -/
  | make (name : String) (c : ClassId) (slots : List Source)
  | hold (name : String) (source : Source)
  | drop (name : String)
  /-- Puts a reference into a field of an object. -/
  | store (target : Source) (f : FieldRef) (source : Source)
  | strong (source : Source)
  | weak (source : Source)
  | delete (h : Handle)
  | aside (a : Elsewhere H)

namespace ReferenceOp

/-- What an operation asks of the table of global references. -/
def globalOp? (w : World H) : ReferenceOp H → Option (Globals.Op ObjectRef)
  | strong source => some (.strong (source.object? w))
  | weak source => some (.weak (source.object? w))
  | delete h => some (.delete h)
  | _ => none

/-- The state after an operation. -/
def perform (w : World H) : ReferenceOp H → World H
  | make name c slots =>
    let (o, w') := w.newObject c (.slots (slots.map fun source => .reference (source.object? w)))
    w'.hold name (some o)
  | hold name source => w.hold name (source.object? w)
  | drop name => w.forget name
  | store target f source =>
    ((target.object? w).bind fun o => w.setField? o f (.reference (source.object? w))).getD w
  | strong source => w.setGlobals (w.globals.perform (.strong (source.object? w))).2
  | weak source => w.setGlobals (w.globals.perform (.weak (source.object? w))).2
  | delete h => w.setGlobals (w.globals.perform (.delete h)).2
  | aside a => a.act w

end ReferenceOp

/-- A state, with the ledger of its global references. -/
structure Referring (H : Type) where
  world : World H
  ledger : Globals.Ledger ObjectRef

namespace Referring

/-- What an operation does to state and ledger. -/
def step (s : Referring H) (op : ReferenceOp H) : Referring H where
  world := op.perform s.world
  ledger :=
    match op.globalOp? s.world with
    | some g => s.ledger.note g (s.world.globals.perform g).1
    | none => s.ledger

/-- Performs operations from a state without global references on. -/
def run (w : World H) (ops : List (ReferenceOp H)) : Referring H := ops.foldl step ⟨w, ⟨[], []⟩⟩

@[simp] theorem run_concat (w : World H) (ops : List (ReferenceOp H)) (op : ReferenceOp H) :
    run w (ops ++ [op]) = (run w ops).step op := by
  rw [run, List.foldl_append]
  rfl

/-- There is an index for every slot that was ever in use; a handle has room for no more. -/
def Fits (s : Referring H) : Prop := s.world.globals.slots.size ≤ Handle.maxIndex + 1

end Referring

/-! ## What an operation does -/

theorem Source.isAlive {source : Source} (rooted : w.Rooted) (ho : source.object? w = some o) :
    w.isAlive o = true := by
  cases source with
  | named name =>
    obtain ⟨before, after, hnamed, -⟩ := List.lookup_eq_some_iff.1 (Option.join_eq_some_iff.1 ho)
    refine rooted.isAlive (World.mem_roots.2 (.inl ?_))
    simp only [World.ownRoots, List.mem_append]
    refine .inl (.inl (.inl (List.mem_filterMap.2 ⟨(name, some o), ?_, rfl⟩)))
    rw [hnamed]
    exact List.mem_append_right _ List.mem_cons_self
  | handle h => exact rooted.isAlive_of_resolve ho

theorem World.mem_roots_forget {name : String} {x : ObjectRef}
    (hx : x ∈ (w.forget name).roots) : x ∈ w.roots := by
  rw [World.mem_roots] at hx ⊢
  refine hx.imp (fun hx => ?_) id
  simp only [World.ownRoots, List.mem_append] at hx ⊢
  refine hx.imp (.imp (.imp (fun hx => ?_) id) id) id
  exact (List.filter_sublist.filterMap _).subset hx

theorem World.mem_roots_hold {name : String} {object : Option ObjectRef} {x : ObjectRef}
    (hx : x ∈ (w.hold name object).roots) : object = some x ∨ x ∈ w.roots := by
  have hcons : (w.hold name object).roots = object.toList ++ (w.forget name).roots := by
    rw [World.roots_eq, World.roots_eq]
    cases object <;> rfl
  rw [hcons, List.mem_append, Option.mem_toList] at hx
  exact hx.imp id World.mem_roots_forget

theorem references_setField? {object object' : Object} {f : Field} {v : Value} {x : ObjectRef}
    (h : object.setField? f v = some object') (hx : x ∈ object'.references) :
    x ∈ object.references ∨ v.object? = some x := by
  unfold Object.setField? at h
  split at h
  next values hbody =>
    split at h
    · cases h
      obtain ⟨v', hmem, hobject⟩ := List.mem_filterMap.1 hx
      rcases List.mem_or_eq_of_mem_set hmem with hmem | heq
      · refine .inl ?_
        rw [Object.references, hbody]
        exact List.mem_filterMap.2 ⟨v', hmem, hobject⟩
      · exact .inr (heq ▸ hobject)
    · cases h
  · cases h

namespace ReferenceOp

theorem honest_store (rooted : w.Rooted) (target : Source) (f : FieldRef) (source : Source) :
    w.Honest ((store target f source).perform w) := by
  have hself : w.Honest w := World.honest_of_heap_eq rfl fun _ => rooted.isAlive
  simp only [perform]
  cases hs : (target.object? w).bind fun o => w.setField? o f (.reference (source.object? w)) with
  | none => exact hself
  | some w' =>
    obtain ⟨o, -, hs⟩ := Option.bind_eq_some_iff.1 hs
    obtain ⟨object, hobject, rfl⟩ := Option.map_eq_some_iff.1 hs
    exact rooted.honest_setObject fun x hx =>
      (references_setField? hobject hx).imp id (source.isAlive rooted)

/-- No operation refers to anything that is gone. -/
theorem honest_perform (rooted : w.Rooted) (hb : w.bridge.isSome = true)
    (tidy : w.globals.Tidy) (op : ReferenceOp H) : w.Honest (op.perform w) := by
  cases op with
  | make name c slots =>
    refine rooted.honest_of_push (fun o ho => ?_) rfl fun o ho => ?_
    · obtain ⟨v, hv, ho⟩ := List.mem_filterMap.1 ho
      obtain ⟨source, -, rfl⟩ := List.mem_map.1 hv
      exact source.isAlive rooted ho
    · exact (World.mem_roots_hold ho).imp (fun h => (Option.some.inj h).symm) id
  | hold name source =>
    refine World.honest_of_heap_eq rfl fun o ho => ?_
    exact (World.mem_roots_hold ho).elim (source.isAlive rooted) rooted.isAlive
  | drop name =>
    exact World.honest_of_heap_eq rfl fun o ho => rooted.isAlive (World.mem_roots_forget ho)
  | store target f source => exact honest_store rooted target f source
  | strong source =>
    refine rooted.honest_perform hb tidy fun o ho => ?_
    exact source.isAlive rooted (Globals.Op.strong.inj ho)
  | weak source => exact rooted.honest_perform hb tidy fun o ho => by cases ho
  | delete h => exact rooted.honest_perform hb tidy fun o ho => by cases ho
  | aside a => exact a.honest w rooted

theorem perform_of_globalOp? {op : ReferenceOp H} {g : Globals.Op ObjectRef}
    (hg : op.globalOp? w = some g) :
    op.perform w = w.setGlobals (w.globals.perform g).2 := by
  cases op <;> cases hg <;> rfl

theorem globals_perform_of_none {op : ReferenceOp H} (hg : op.globalOp? w = none) :
    (op.perform w).bridge.map (·.globals) = w.bridge.map (·.globals) := by
  cases op with
  | make name c slots => rfl
  | hold name source => rfl
  | drop name => rfl
  | store target f source =>
    simp only [perform]
    cases hs : (target.object? w).bind fun o =>
        w.setField? o f (.reference (source.object? w)) with
    | none => rfl
    | some w' =>
      obtain ⟨o, -, hs⟩ := Option.bind_eq_some_iff.1 hs
      obtain ⟨object, -, rfl⟩ := Option.map_eq_some_iff.1 hs
      rfl
  | strong source => cases hg
  | weak source => cases hg
  | delete h => cases hg
  | aside a => exact a.globals_eq w

theorem isSome_bridge_perform (w : World H) (op : ReferenceOp H) :
    (op.perform w).bridge.isSome = w.bridge.isSome := by
  cases hg : op.globalOp? w with
  | some g => rw [perform_of_globalOp? hg, World.isSome_bridge_setGlobals]
  | none => simpa using congrArg Option.isSome (globals_perform_of_none hg)

/-- An operation does to the table what it asks of it, if it asks for anything. -/
theorem globals_perform (hb : w.bridge.isSome = true) (op : ReferenceOp H) :
    (op.perform w).globals =
      match op.globalOp? w with
      | some g => (w.globals.perform g).2
      | none => w.globals := by
  cases hg : op.globalOp? w with
  | some g => rw [perform_of_globalOp? hg, World.globals_setGlobals hb]
  | none => rw [World.globals, World.globals, globals_perform_of_none hg]

end ReferenceOp

/-! ## What holds of every run -/

namespace Referring

variable {s : Referring H} {op : ReferenceOp H}

/-- The ledger tells what the table holds, and objects that it names were made. -/
structure Consistent (s : Referring H) : Prop where
  bridge : s.world.bridge.isSome = true
  rooted : s.world.Rooted
  keeps : s.world.globals.Keeps s.ledger
  made : ∀ h o, (h, .weak o) ∈ s.ledger.live → o.index < s.world.heap.size

theorem fits_of_step (hb : s.world.bridge.isSome = true) (hfits : (s.step op).Fits) : s.Fits := by
  refine Nat.le_trans ?_ hfits
  rw [step, op.globals_perform hb]
  split
  · exact (Globals.size_perform _ _).1
  · exact Nat.le_refl _

namespace Consistent

theorem honest (c : Consistent s) (op : ReferenceOp H) : s.world.Honest (s.step op).world :=
  op.honest_perform c.rooted c.bridge c.keeps.tidy

/-- An operation keeps the table and the ledger in step. -/
theorem step (c : Consistent s) (op : ReferenceOp H) (hfits : (s.step op).Fits) :
    Consistent (s.step op) where
  bridge := (op.isSome_bridge_perform s.world).trans c.bridge
  rooted := (c.honest op).rooted
  keeps := by
    have hglobals := op.globals_perform c.bridge
    rw [Fits, Referring.step, hglobals] at hfits
    rw [Referring.step, hglobals]
    cases hg : op.globalOp? s.world with
    | none => exact c.keeps
    | some g =>
      rw [hg] at hfits
      exact c.keeps.perform g hfits
  made := by
    intro h o hm
    have hold : (h, .weak o) ∈ s.ledger.live → o.index < (s.step op).world.heap.size :=
      fun hm => Nat.lt_of_lt_of_le (c.made h o hm) (c.honest op).size_le
    rw [Referring.step] at hm
    cases hg : op.globalOp? s.world with
    | none =>
      rw [hg] at hm
      exact hold hm
    | some g =>
      rw [hg] at hm
      rcases Globals.Ledger.of_mem_live_note hm with hm | href
      · exact hold hm
      · -- Only an object that is there is asked for.
        obtain rfl := Globals.Op.eq_weak_of_referent? href
        cases op with
        | weak source =>
          have halive := source.isAlive c.rooted (Globals.Op.weak.inj (Option.some.inj hg))
          exact Nat.lt_of_lt_of_le (Heap.lt_size_of_isAlive halive) (c.honest _).size_le
        | _ => cases hg

end Consistent

/-- A state with a bridge and without global references. -/
structure Opening (w : World H) : Prop where
  bridge : w.bridge.isSome = true
  empty : ∃ limit, w.globals = .empty limit
  rooted : w.Rooted

theorem consistent_start (hw : Opening w) : Consistent ⟨w, ⟨[], []⟩⟩ where
  bridge := hw.bridge
  rooted := hw.rooted
  keeps := by
    obtain ⟨limit, hlimit⟩ := hw.empty
    show w.globals.Keeps _
    rw [hlimit]
    exact .empty limit
  made := by simp

variable {before after ops : List (ReferenceOp H)} {r : Referent ObjectRef}

theorem isSome_bridge_run (hb : w.bridge.isSome = true) (ops : List (ReferenceOp H)) :
    (run w ops).world.bridge.isSome = true := by
  induction ops using List.reverseRecOn with
  | nil => exact hb
  | append_singleton ops op ih =>
    rw [run_concat]
    exact (op.isSome_bridge_perform _).trans ih

/-- There are at most as many slots as there were operations. -/
theorem Opening.fits (hw : Opening w) (hops : ops.length ≤ Handle.maxIndex + 1) :
    (run w ops).Fits := by
  refine Nat.le_trans ?_ hops
  induction ops using List.reverseRecOn with
  | nil =>
    obtain ⟨limit, hlimit⟩ := hw.empty
    exact Nat.le_of_eq (congrArg (fun t => t.slots.size) hlimit)
  | append_singleton ops op ih =>
    rw [List.length_append, List.length_singleton] at hops ⊢
    refine Nat.le_trans ?_ (Nat.succ_le_succ (ih (by omega)))
    rw [run_concat, step, op.globals_perform (isSome_bridge_run hw.bridge ops)]
    split
    · exact (Globals.size_perform _ _).2
    · exact Nat.le_succ _

/-- There was an index for every slot all the time. -/
theorem fits_of_append (hb : w.bridge.isSome = true) (hfits : (run w (before ++ after)).Fits) :
    (run w before).Fits := by
  induction after using List.reverseRecOn with
  | nil => rwa [List.append_nil] at hfits
  | append_singleton after op ih =>
    rw [← List.append_assoc, run_concat] at hfits
    exact ih (fits_of_step (isSome_bridge_run hb _) hfits)

theorem consistent_run (hw : Opening w) (ops : List (ReferenceOp H)) (hfits : (run w ops).Fits) :
    Consistent (run w ops) := by
  induction ops using List.reverseRecOn with
  | nil => exact consistent_start hw
  | append_singleton ops op ih =>
    rw [run_concat] at hfits ⊢
    exact (ih (fits_of_step (isSome_bridge_run hw.bridge _) hfits)).step op hfits

/-! ## Objects that are gone -/

theorem isAlive_of_append (hw : Opening w) (hfits : (run w (before ++ after)).Fits)
    (ho : o.index < (run w before).world.heap.size) :
    o.index < (run w (before ++ after)).world.heap.size ∧
      ((run w (before ++ after)).world.isAlive o = true →
        (run w before).world.isAlive o = true) := by
  induction after using List.reverseRecOn with
  | nil =>
    rw [List.append_nil]
    exact ⟨ho, id⟩
  | append_singleton after op ih =>
    rw [← List.append_assoc, run_concat] at hfits ⊢
    have hfits' := fits_of_step (isSome_bridge_run hw.bridge _) hfits
    obtain ⟨hlt, halive⟩ := ih hfits'
    have honest := (consistent_run hw _ hfits').honest op
    exact ⟨Nat.lt_of_lt_of_le hlt honest.size_le, fun h => halive (honest.isAlive hlt h)⟩

/-! ## References that are live -/

theorem mem_live_of_append (hm : (h, r) ∈ (run w before).ledger.live)
    (hafter : .delete h ∉ after) : (h, r) ∈ (run w (before ++ after)).ledger.live := by
  induction after using List.reverseRecOn with
  | nil => rwa [List.append_nil]
  | append_singleton after op ih =>
    rw [← List.append_assoc, run_concat, step]
    have hm := ih fun hd => hafter (List.mem_append_left _ hd)
    cases hg : op.globalOp? (run w (before ++ after)).world with
    | none => exact hm
    | some g =>
      refine Globals.Ledger.mem_live_note _ hm ?_
      rintro rfl
      cases op with
      | delete h' =>
        cases hg
        exact hafter (List.mem_append_right _ (List.mem_singleton_self _))
      | _ => cases hg

theorem Consistent.not_mem_handles_delete (c : Consistent s) :
    h ∉ (s.step (.delete h)).ledger.handles := by
  simp only [Referring.step, ReferenceOp.globalOp?, Globals.perform, Globals.delete_eq]
  by_cases hl : s.world.globals.isLive h = true
  · rw [if_pos hl]
    intro hm
    obtain ⟨e, he, rfl⟩ := List.mem_map.1 hm
    simpa using (List.mem_filter.1 he).2
  · rw [if_neg hl]
    exact mt c.keeps.mem_handles_iff.1 hl

theorem not_mem_handles_of_append (hw : Opening w) (hfits : (run w (before ++ after)).Fits)
    (hi : h ∈ (run w before).ledger.issued) (hl : h ∉ (run w before).ledger.handles) :
    h ∈ (run w (before ++ after)).ledger.issued ∧
      h ∉ (run w (before ++ after)).ledger.handles := by
  induction after using List.reverseRecOn with
  | nil =>
    rw [List.append_nil]
    exact ⟨hi, hl⟩
  | append_singleton after op ih =>
    rw [← List.append_assoc, run_concat] at hfits ⊢
    obtain ⟨hi, hl⟩ := ih (fits_of_step (isSome_bridge_run hw.bridge _) hfits)
    have hnodup := (consistent_run hw _ ((run_concat ..).symm ▸ hfits)).keeps.issued_nodup
    rw [run_concat] at hnodup
    rw [step] at hnodup ⊢
    cases hg : op.globalOp? (run w (before ++ after)).world with
    | none => exact ⟨hi, hl⟩
    | some g =>
      rw [hg] at hnodup
      exact Globals.Ledger.not_mem_handles_note hnodup hi hl

theorem mem_issued_of_append (hi : h ∈ (run w before).ledger.issued) :
    h ∈ (run w (before ++ after)).ledger.issued := by
  induction after using List.reverseRecOn with
  | nil => rwa [List.append_nil]
  | append_singleton after op ih =>
    rw [← List.append_assoc, run_concat, step]
    cases op.globalOp? (run w (before ++ after)).world with
    | none => exact ih
    | some g => exact Globals.Ledger.mem_issued_note g _ ih

theorem not_mem_handles_of_deleted (hw : Opening w) (hi : h ∈ (run w before).ledger.issued)
    (hfits : (run w (before ++ .delete h :: after)).Fits) :
    h ∉ (run w (before ++ .delete h :: after)).ledger.handles := by
  rw [List.append_cons] at hfits ⊢
  refine (not_mem_handles_of_append hw hfits (mem_issued_of_append hi) ?_).2
  have hfits := fits_of_append hw.bridge hfits
  rw [run_concat] at hfits ⊢
  have c := consistent_run hw _ (fits_of_step (isSome_bridge_run hw.bridge _) hfits)
  exact c.not_mem_handles_delete

/-- A reference is live until it is deleted. -/
theorem isLive_iff_not_deleted (hw : Opening w) (hfits : (run w (before ++ after)).Fits)
    (hm : (h, r) ∈ (run w before).ledger.live) :
    (run w (before ++ after)).world.globals.isLive h = true ↔ .delete h ∉ after := by
  rw [← (consistent_run hw _ hfits).keeps.mem_handles_iff]
  constructor
  · intro hl hd
    obtain ⟨a, a', rfl⟩ := List.append_of_mem hd
    have c := consistent_run hw before (fits_of_append hw.bridge hfits)
    have hi := c.keeps.issued_of_live h (List.mem_map_of_mem (f := Prod.fst) hm)
    rw [← List.append_assoc] at hfits hl
    exact not_mem_handles_of_deleted hw (mem_issued_of_append hi) hfits hl
  · exact fun hd => List.mem_map_of_mem (f := Prod.fst) (mem_live_of_append hm hd)

end Referring

end GuestBoundary
