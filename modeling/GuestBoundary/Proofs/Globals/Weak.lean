import GuestBoundary.Interface.References
import GuestBoundary.Proofs.Globals.Runs
import GuestBoundary.Proofs.Interface.Outcomes

/-!
# Weak global references

A weak global reference stands for its object as long as the object is owned, for nothing ever
after, and never for anything else; it is live until it is deleted, and it owns nothing.  A strong
reference that is made from it owns the object, and none is made once the object is gone
(`WeakReference`).
-/

namespace GuestBoundary.Interface

variable {H : Type} {w : World H} {h : Handle}

/-- What an attempt to make a global reference comes to. -/
def allocated (w : World H) :
    Except AllocError (Handle × Globals ObjectRef) → Outcome H EntryError Handle
  | .ok (g, t) => .ok g (w.setGlobals t)
  | .error e => .error (.alloc e) w

/-- A strong global reference is made to what the handle stands for. -/
theorem newGlobalRef_eq (hb : w.bridge.isSome = true) (h : Handle) :
    newGlobalRef h w = allocated w (w.globals.createStrong (w.resolve h)) := by
  obtain ⟨b, hb⟩ := Option.isSome_iff_exists.1 hb
  rw [newGlobalRef, Action.bind_ok Entry.object_eq, World.globals_eq hb]
  cases hc : b.globals.createStrong (w.resolve h) with
  | ok created =>
    obtain ⟨g, t⟩ := created
    rw [Entry.onBridge_ok hb (by rw [hc])]
    exact congrArg _ (World.setGlobals_eq hb t).symm
  | error e =>
    rw [Entry.onBridge_error hb (by rw [hc])]
    rfl

/-- A live weak reference can be deleted. -/
theorem deleteGlobal_of_isLive (hb : w.bridge.isSome = true) (hl : w.globals.isLive h = true)
    (expected : String) :
    deleteGlobal h.tag expected h w = .ok () (w.setGlobals (w.globals.vacate h.index)) := by
  have hnull : ¬ h.isNull = true := by
    intro hn
    obtain ⟨r, hr⟩ := Globals.isLive_iff.1 hl
    obtain ⟨-, -, hkind, hv⟩ := Globals.occupant?_eq_some_iff.1 hr
    obtain rfl : h = .null := congrArg Handle.mk (beq_iff_eq.1 hn)
    exact hv ((Globals.kind_eq_invalid_iff r).1 hkind)
  obtain ⟨b, hb⟩ := Option.isSome_iff_exists.1 hb
  rw [World.globals_eq hb] at hl ⊢
  rw [deleteGlobal, if_neg hnull, if_neg (fun hne => hne rfl),
    Entry.onBridge_ok hb (by rw [Globals.delete_eq, if_pos hl]), World.setGlobals_eq hb]

end GuestBoundary.Interface

namespace GuestBoundary.Referring

variable {H : Type} {w : World H} {o : ObjectRef} {h : Handle} {r : Referent ObjectRef}
  {s : Referring H} {op : ReferenceOp H} {before after : List (ReferenceOp H)}

/-! ## What references stand for -/

namespace Consistent

theorem occupant (c : Consistent s) (hm : (h, r) ∈ s.ledger.live) :
    s.world.globals.occupant? h = some r ∧ h.tag = r.kind := by
  have ho := (c.keeps.live h r).1 hm
  exact ⟨ho, (Globals.occupant?_eq_some_iff.1 ho).2.2.1.symm⟩

/-- A weak reference stands for its object as long as the object is owned. -/
theorem resolve_weak (c : Consistent s) (hm : (h, .weak o) ∈ s.ledger.live) (p : ObjectRef) :
    s.world.resolve h = some p ↔ p = o ∧ s.world.Owned o := by
  obtain ⟨ho, htag⟩ := c.occupant hm
  rw [World.resolve_eq_globals (.inr htag), Globals.resolve, ho, Option.bind_some,
    Referent.object?, ← World.isAlive_iff_owned (c.made h o hm)]
  split
  next halive => simp [halive, eq_comm]
  next halive => simp [halive]

/-- A strong reference stands for its object and owns it. -/
theorem resolve_strong (c : Consistent s) (hm : (h, .strong o) ∈ s.ledger.live) :
    s.world.resolve h = some o ∧ s.world.Owned o := by
  obtain ⟨ho, htag⟩ := c.occupant hm
  constructor
  · rw [World.resolve_eq_globals (.inl htag), Globals.resolve, ho]
    rfl
  · refine .inl (World.mem_roots.2 (.inr (Globals.mem_objects_iff.2 ⟨h.index, ?_⟩)))
    exact (Globals.occupant?_eq_some_iff.1 ho).2.1

/-- Making a weak reference keeps nothing. -/
theorem isAlive_step_weak (c : Consistent s) (source : Source) (p : ObjectRef) :
    (s.step (.weak source)).world.isAlive p = s.world.isAlive p :=
  World.isAlive_setGlobals c.bridge (fun _ => c.keeps.tidy.mem_objects_perform_weak) p

/-- Deleting a weak reference releases nothing. -/
theorem isAlive_step_delete (c : Consistent s) (hm : (h, .weak o) ∈ s.ledger.live)
    (p : ObjectRef) : (s.step (.delete h)).world.isAlive p = s.world.isAlive p :=
  World.isAlive_setGlobals c.bridge
    (fun _ => Globals.mem_objects_perform_delete (c.occupant hm).1) p

end Consistent

/-! ## Making references -/

/-- An attempt to make a reference fails if there is no room, and else comes to a handle that was
never given out before and is entered for what was asked for. -/
def Enters {β : Type} (s : Referring H) (op : ReferenceOp H) (r : Referent ObjectRef) (attempt : β)
    (full : AllocError → β) (made : Handle → β) : Prop :=
  if s.world.globals.live ≥ s.world.globals.limit then
    attempt = full (.globalLimit s.world.globals.limit)
  else
    ∃ h, attempt = made h ∧ (h, r) ∈ (s.step op).ledger.live ∧
      ((s.step op).Fits → h ∉ s.ledger.issued)

theorem Enters.map {β γ : Type} {attempt : β} {full : AllocError → β} {made : Handle → β}
    (h : s.Enters op r attempt full made) (f : β → γ) :
    s.Enters op r (f attempt) (fun e => f (full e)) fun g => f (made g) := by
  rw [Enters] at h ⊢
  split at h
  next hfull => rw [if_pos hfull, h]
  next hroom =>
    obtain ⟨g, rfl, hg⟩ := h
    rw [if_neg hroom]
    exact ⟨g, rfl, hg⟩

theorem Consistent.enters (c : Consistent s) {g : Globals.Op ObjectRef}
    (hg : op.globalOp? s.world = some g) (hr : g.referent? = some r) :
    s.Enters op r (s.world.globals.insert r) .error
      fun h => .ok (h, (s.step op).world.globals) := by
  have hperform := c.keeps.tidy.perform_of_referent? hr
  rw [Enters, c.keeps.tidy.insert_eq]
  split
  · rfl
  next hroom =>
    rw [if_neg hroom] at hperform
    have hglobals : (s.step op).world.globals = s.world.globals.fill r := by
      rw [Referring.step, op.globals_perform c.bridge, hg]
      show (s.world.globals.perform g).2 = _
      rw [hperform]
    have hledger : (s.step op).ledger =
        s.ledger.own (s.world.globals.nextHandle r.kind) r := by
      simp only [Referring.step, hg, hperform, Globals.Ledger.note, hr]
    rw [hglobals, hledger]
    refine ⟨_, rfl, List.mem_cons_self, fun hfits => ?_⟩
    rw [Fits, hglobals, c.keeps.tidy.size_slots_fill] at hfits
    exact c.keeps.nextHandle_not_mem_issued (by omega) r.kind

theorem Consistent.newGlobalRef_null (c : Consistent s) (hr : s.world.resolve h = none) :
    Interface.newGlobalRef h s.world = .ok .null s.world := by
  rw [Interface.newGlobalRef_eq c.bridge, hr]
  exact congrArg _ (World.setGlobals_globals _)

/-- A strong reference is made to what a handle stands for, if there is room. -/
theorem Consistent.newGlobalRef (c : Consistent s) (hr : s.world.resolve h = some o) :
    s.Enters (.strong (.handle h)) (.strong o) (Interface.newGlobalRef h s.world)
      (fun e => .error (.alloc e) s.world)
      fun g => .ok g (s.step (.strong (.handle h))).world := by
  have hop : (ReferenceOp.strong (.handle h)).globalOp? s.world = some (.strong (some o)) :=
    congrArg (fun o => some (Globals.Op.strong o)) hr
  have hworld : (s.step (.strong (.handle h))).world =
      s.world.setGlobals (s.step (.strong (.handle h))).world.globals := by
    rw [Referring.step, ReferenceOp.perform_of_globalOp? hop, World.globals_setGlobals c.bridge]
  rw [Interface.newGlobalRef_eq c.bridge, hr, hworld]
  exact (c.enters hop rfl).map (Interface.allocated s.world)

/-! ## Weak references through any run -/

/-- What a weak reference is worth that was live after the first operations, after all of them. -/
structure WeakReference (w : World H) (before after : List (ReferenceOp H)) (h : Handle)
    (o : ObjectRef) : Prop where
  /-- It is live until it is deleted. -/
  isLive : (run w (before ++ after)).world.globals.isLive h = true ↔ .delete h ∉ after
  refKind : .delete h ∉ after → (run w (before ++ after)).world.refKind h = .weakGlobal
  /-- It stands for its object while there is a strong reference to it, and for nothing else. -/
  resolve : ∀ p, (run w (before ++ after)).world.resolve h = some p ↔
    p = o ∧ .delete h ∉ after ∧ (run w (before ++ after)).world.Owned o
  /-- Once the last strong reference is gone, the reference stands for nothing ever after. -/
  gone : ¬ (run w before).world.Owned o →
    ¬ (run w (before ++ after)).world.Owned o ∧ (run w (before ++ after)).world.resolve h = none
  /-- It can be deleted, and then the same objects are there as before. -/
  delete : .delete h ∉ after →
    Interface.deleteGlobal .weakGlobal "weak global" h (run w (before ++ after)).world =
      .ok () (run w (before ++ after ++ [.delete h])).world ∧
    ∀ p, (run w (before ++ after ++ [.delete h])).world.isAlive p =
      (run w (before ++ after)).world.isAlive p
  /-- No strong reference is made from it once its object is gone. -/
  unpinned : ¬ (run w (before ++ after)).world.Owned o →
    Interface.newGlobalRef h (run w (before ++ after)).world =
      .ok .null (run w (before ++ after)).world
  /-- As long as its object is there, a strong reference that is made from it is one to the
  object, and is refused only if there is no room. -/
  pinned : .delete h ∉ after → (run w (before ++ after)).world.Owned o →
    (run w (before ++ after)).Enters (.strong (.handle h)) (.strong o)
      (Interface.newGlobalRef h (run w (before ++ after)).world)
      (fun e => .error (.alloc e) (run w (before ++ after)).world)
      fun g => .ok g (run w (before ++ after ++ [.strong (.handle h)])).world

/-- What weak and strong references are worth after operations on a state. -/
structure WeakReferences (w : World H) (ops : List (ReferenceOp H)) : Prop where
  /-- A weak reference may be made to any object that there is a strong reference to, and owns
  nothing. -/
  enters : ∀ source o, source.object? (run w ops).world = some o →
    (run w ops).Enters (.weak source) (.weak o)
      ((run w ops).world.globals.createWeak (some o)) .error
      (fun h => .ok (h, (run w (ops ++ [.weak source])).world.globals)) ∧
    ∀ p, (run w (ops ++ [.weak source])).world.isAlive p = (run w ops).world.isAlive p
  weak : ∀ before after, ops = before ++ after → ∀ h o,
    (h, .weak o) ∈ (run w before).ledger.live → WeakReference w before after h o
  /-- A strong reference owns its object until it is deleted. -/
  strong : ∀ before after, ops = before ++ after → ∀ g o,
    (g, .strong o) ∈ (run w before).ledger.live → .delete g ∉ after →
      (run w ops).world.resolve g = some o ∧ (run w ops).world.Owned o
  issued_nodup : (run w ops).ledger.issued.Nodup

/-- A reference that was deleted stands for nothing. -/
theorem resolve_of_deleted (hw : Opening w) (hfits : (run w (before ++ after)).Fits)
    (hm : (h, .weak o) ∈ (run w before).ledger.live) (hd : .delete h ∈ after) :
    (run w (before ++ after)).world.resolve h = none := by
  have htag := ((consistent_run hw before (fits_of_append hw.bridge hfits)).occupant hm).2
  have hdead : ¬ (run w (before ++ after)).world.globals.isLive h = true :=
    fun hl => (isLive_iff_not_deleted hw hfits hm).1 hl hd
  rw [World.resolve_eq_globals (.inr htag), Globals.resolve,
    Option.not_isSome_iff_eq_none.1 hdead, Option.bind_none]

theorem resolve_iff (hw : Opening w) (hfits : (run w (before ++ after)).Fits)
    (hm : (h, .weak o) ∈ (run w before).ledger.live) (p : ObjectRef) :
    (run w (before ++ after)).world.resolve h = some p ↔
      p = o ∧ .delete h ∉ after ∧ (run w (before ++ after)).world.Owned o := by
  by_cases hd : .delete h ∈ after
  · rw [resolve_of_deleted hw hfits hm hd]
    simp [hd]
  · rw [(consistent_run hw _ hfits).resolve_weak (mem_live_of_append hm hd)]
    simp [hd]

/-- An object whose last owner is gone is never owned again. -/
theorem not_owned_of_append (hw : Opening w) (hfits : (run w (before ++ after)).Fits)
    (hm : (h, .weak o) ∈ (run w before).ledger.live) (ho : ¬ (run w before).world.Owned o) :
    ¬ (run w (before ++ after)).world.Owned o := by
  have hmade := (consistent_run hw before (fits_of_append hw.bridge hfits)).made h o hm
  obtain ⟨hmade', halive⟩ := isAlive_of_append hw hfits hmade
  rw [← World.isAlive_iff_owned hmade] at ho
  rw [← World.isAlive_iff_owned hmade']
  exact mt halive ho

/-- A weak reference can be deleted. -/
theorem Consistent.deleteGlobal (c : Consistent s) (hm : (h, .weak o) ∈ s.ledger.live) :
    Interface.deleteGlobal .weakGlobal "weak global" h s.world =
      .ok () (s.step (.delete h)).world := by
  obtain ⟨ho, htag⟩ := c.occupant hm
  have hl : s.world.globals.isLive h = true := Globals.isLive_iff.2 ⟨_, ho⟩
  have hdelete := Interface.deleteGlobal_of_isLive c.bridge hl "weak global"
  rw [htag] at hdelete
  refine hdelete.trans (congrArg _ ?_)
  simp only [Referring.step, ReferenceOp.perform, Globals.perform, Globals.delete_eq, if_pos hl]

theorem weakReference (hw : Opening w) (hfits : (run w (before ++ after)).Fits)
    (hm : (h, .weak o) ∈ (run w before).ledger.live) : WeakReference w before after h o := by
  have c := consistent_run hw _ hfits
  have hlive : .delete h ∉ after → (h, .weak o) ∈ (run w (before ++ after)).ledger.live :=
    mem_live_of_append hm
  have hnone : ¬ (run w (before ++ after)).world.Owned o →
      (run w (before ++ after)).world.resolve h = none := fun ho =>
    Option.eq_none_iff_forall_ne_some.2 fun p hp => ho ((resolve_iff hw hfits hm p).1 hp).2.2
  constructor
  case isLive => exact isLive_iff_not_deleted hw hfits hm
  case refKind =>
    intro hd
    have htag : h.tag = .weakGlobal := (c.occupant (hlive hd)).2
    rw [World.refKind_eq_globals (.inr htag), Globals.kindOf,
      if_pos ((isLive_iff_not_deleted hw hfits hm).2 hd), htag]
  case resolve => exact resolve_iff hw hfits hm
  case gone =>
    intro ho
    have ho := not_owned_of_append hw hfits hm ho
    exact ⟨ho, hnone ho⟩
  case delete =>
    intro hd
    rw [run_concat]
    exact ⟨c.deleteGlobal (hlive hd), c.isAlive_step_delete (hlive hd)⟩
  case unpinned => exact fun ho => c.newGlobalRef_null (hnone ho)
  case pinned =>
    intro hd ho
    rw [run_concat]
    exact c.newGlobalRef ((c.resolve_weak (hlive hd) o).2 ⟨rfl, ho⟩)

/-- Weak references stand for objects exactly as long as something else owns them. -/
theorem weak_references (hw : Opening w) (ops : List (ReferenceOp H)) (hfits : (run w ops).Fits) :
    WeakReferences w ops where
  enters := by
    intro source o ho
    have c := consistent_run hw ops hfits
    rw [run_concat]
    have hop : (ReferenceOp.weak source).globalOp? (run w ops).world = some (.weak (some o)) :=
      congrArg (fun o => some (Globals.Op.weak o)) ho
    exact ⟨c.enters hop rfl, c.isAlive_step_weak source⟩
  weak := by
    rintro before after rfl h o hm
    exact weakReference hw hfits hm
  strong := by
    rintro before after rfl g o hm hd
    exact (consistent_run hw _ hfits).resolve_strong (mem_live_of_append hm hd)
  issued_nodup := (consistent_run hw ops hfits).keeps.issued_nodup

/-- A weak reference to an object that is held by a name first, and then a strong reference that is
made from the weak one.  The object is gone with the strong reference, whose slot is used for
another weak reference. -/
theorem weak_references_through_expiry :
    let w : World Unit := (World.bare World.defaultCallDepth .growing ()).install .default
    let weak : Handle := .encode 0 0 .weakGlobal
    let strong : Handle := .encode 1 0 .global
    let ops : List (ReferenceOp Unit) :=
      [.make "a" ⟨0⟩ [], .weak (.named "a"), .strong (.handle weak), .drop "a", .delete strong,
        .strong (.handle weak), .make "b" ⟨0⟩ [.handle weak], .weak (.named "b"), .delete weak]
    Opening w ∧ (run w ops).Fits ∧ WeakReferences w ops := by
  intro w weak strong ops
  have hw : Opening w := ⟨rfl, ⟨_, rfl⟩, fun o ho => nomatch ho⟩
  have hfits : (run w ops).Fits := hw.fits (by decide)
  exact ⟨hw, hfits, weak_references hw ops hfits⟩

end GuestBoundary.Referring
