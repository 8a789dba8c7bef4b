import GuestBoundary.Native.Attachment
import GuestBoundary.Proofs.Globals.Retirement
import GuestBoundary.Proofs.Heap.Growth
import GuestBoundary.Proofs.Heap.Survival
import GuestBoundary.Proofs.Locals.Table

/-!
# Who owns objects

An object is owned if there is a strong reference to it (`Owned`): from outside the heap, which
includes strong global references and not weak ones, or from an object that is there itself.  As
long as the strong references from outside are to objects that were made (`Rooted`), the owned
objects are those that are there.  A step is `Honest` if it refers to nothing that was gone before
it; then nothing that is gone comes back (`Honest.isAlive`).
-/

namespace GuestBoundary.World

variable {H : Type} {w w' : World H} {b : Bridge} {t : Globals ObjectRef} {o : ObjectRef}
  {h : Handle}

/-! ## The table of global references -/

/-- The table of global references; where there is no bridge, there is no room in it. -/
def globals (w : World H) : Globals ObjectRef := (w.bridge.map (·.globals)).getD (.empty 0)

/-- Replaces the table of global references. -/
def setGlobals (w : World H) (t : Globals ObjectRef) : World H :=
  { w with bridge := w.bridge.map fun b => { b with globals := t } }

theorem globals_eq (hb : w.bridge = some b) : w.globals = b.globals := by
  rw [globals, hb]
  rfl

theorem setGlobals_eq (hb : w.bridge = some b) (t : Globals ObjectRef) :
    w.setGlobals t = { w with bridge := some { b with globals := t } } := by
  rw [setGlobals, hb]
  rfl

theorem globals_setGlobals (hb : w.bridge.isSome = true) (t : Globals ObjectRef) :
    (w.setGlobals t).globals = t := by
  obtain ⟨b, hb⟩ := Option.isSome_iff_exists.1 hb
  rw [globals, setGlobals, hb]
  rfl

theorem isSome_bridge_setGlobals (w : World H) (t : Globals ObjectRef) :
    (w.setGlobals t).bridge.isSome = w.bridge.isSome := by
  cases hb : w.bridge <;> simp [setGlobals, hb]

theorem setGlobals_globals (w : World H) : w.setGlobals w.globals = w := by
  have : (w.bridge.map fun b => { b with globals := w.globals }) = w.bridge := by
    cases hb : w.bridge with
    | none => rfl
    | some b => rw [globals_eq hb]; rfl
  rw [setGlobals, this]

/-- The objects that something outside the heap refers to, global references apart. -/
def ownRoots (w : World H) : List ObjectRef :=
  w.named.filterMap Prod.snd ++ w.held ++ w.states.toList.flatMap classObjects ++
    (w.allThreads.filterMap Thread.attachment).flatMap attachmentObjects

theorem roots_eq (w : World H) : w.roots = w.ownRoots ++ w.globals.objects := by
  rw [roots, ownRoots, globals]
  cases w.bridge <;> rfl

theorem mem_roots : o ∈ w.roots ↔ o ∈ w.ownRoots ∨ o ∈ w.globals.objects := by
  rw [roots_eq, List.mem_append]

/-- Handles of global references are resolved against the table. -/
theorem resolve_eq_globals (htag : h.tag = .global ∨ h.tag = .weakGlobal) :
    w.resolve h = w.globals.resolve w.isAlive h := by
  have heq : w.resolve h = w.bridge.bind fun b => b.globals.resolve w.isAlive h := by
    rw [resolve]
    rcases htag with htag | htag <;> rw [htag]
  rw [heq, globals]
  cases w.bridge <;> rfl

theorem refKind_eq_globals (htag : h.tag = .global ∨ h.tag = .weakGlobal) :
    w.refKind h = w.globals.kindOf h := by
  have heq : w.refKind h =
      if (w.bridge.map fun b => b.globals.isLive h).getD false then h.tag else .invalid := by
    rw [refKind]
    rcases htag with htag | htag <;> rw [htag]
  rw [heq, globals, Globals.kindOf]
  cases w.bridge <;> rfl

/-! ## Owners -/

/-- There is a strong reference to an object: from outside the heap, or from an object that is still
there. -/
def Owned (w : World H) (o : ObjectRef) : Prop :=
  w.heap.Referred w.roots (w.isAlive · = true) o

/-- The strong references from outside the heap are to objects that were made. -/
def Rooted (w : World H) : Prop := ∀ o ∈ w.roots, o.index < w.heap.size

theorem isAlive_iff_owned (ho : o.index < w.heap.size) : w.isAlive o = true ↔ w.Owned o := by
  rw [isAlive, Heap.isAlive_iff_referred]
  exact and_iff_right ho

theorem Rooted.isAlive (rooted : w.Rooted) (ho : o ∈ w.roots) : w.isAlive o = true :=
  Heap.isAlive_of_mem_roots (rooted o ho) ho

/-- What a table keeps decides what is still there. -/
theorem isAlive_setGlobals (hb : w.bridge.isSome = true)
    (ht : ∀ o, o ∈ t.objects ↔ o ∈ w.globals.objects) (o : ObjectRef) :
    (w.setGlobals t).isAlive o = w.isAlive o := by
  refine Heap.isAlive_congr fun x => ?_
  rw [mem_roots, mem_roots, globals_setGlobals hb, ht]
  rfl

/-- A handle that resolves stands for an object that is still there. -/
theorem Rooted.isAlive_of_resolve (rooted : w.Rooted) (ho : w.resolve h = some o) :
    w.isAlive o = true := by
  have hglobal : w.globals.resolve w.isAlive h = some o → w.isAlive o = true := by
    intro ho
    obtain ⟨r, hr, hobject⟩ := Option.bind_eq_some_iff.1 ho
    cases r with
    | vacant => cases hobject
    | strong p =>
      cases hobject
      exact rooted.isAlive (mem_roots.2 (.inr (Globals.mem_objects_iff.2
        ⟨_, (Globals.occupant?_eq_some_iff.1 hr).2.1⟩)))
    | weak p =>
      simp only [Referent.object?] at hobject
      split at hobject
      next halive =>
        cases hobject
        exact halive
      next => cases hobject
  cases htag : h.tag with
  | invalid =>
    rw [resolve, htag] at ho
    cases ho
  | «local» =>
    rw [resolve, htag] at ho
    obtain ⟨a, ha, ho⟩ := Option.bind_eq_some_iff.1 ho
    obtain ⟨-, -, ho⟩ := Locals.resolve_eq_some_iff.1 ho
    refine rooted.isAlive (mem_roots.2 (.inl (List.mem_append_right _ ?_)))
    refine List.mem_flatMap.2 ⟨a, List.mem_filterMap.2 ⟨w.thread, List.mem_cons_self, ha⟩, ?_⟩
    refine List.mem_append_right _ (List.mem_filterMap.2 ⟨some o, ?_, rfl⟩)
    exact Array.mem_toList_iff.2 (Array.mem_of_getElem? (Option.join_eq_some_iff.1 ho))
  | «global» => exact hglobal (by rwa [resolve_eq_globals (.inl htag)] at ho)
  | weakGlobal => exact hglobal (by rwa [resolve_eq_globals (.inr htag)] at ho)

/-! ## Honest steps -/

/-- Whatever is referred to after a step was there before it, or was made by it. -/
structure Honest (w w' : World H) : Prop where
  size_le : w.heap.size ≤ w'.heap.size
  roots : ∀ o ∈ w'.roots,
    o.index < w'.heap.size ∧ (o.index < w.heap.size → w.isAlive o = true)
  references : ∀ y, ∀ o ∈ (w'.heap.get y).references, o.index < w.heap.size →
    o ∈ (w.heap.get y).references ∨ w.isAlive o = true

/-- What is gone stays gone. -/
theorem Honest.isAlive (honest : w.Honest w') (ho : o.index < w.heap.size)
    (halive : w'.isAlive o = true) : w.isAlive o = true :=
  Heap.isAlive_of_isAlive (fun x hx => (honest.roots x hx).2) honest.references ho halive

theorem Honest.rooted (honest : w.Honest w') : w'.Rooted := fun o ho => (honest.roots o ho).1

/-- A step that leaves the heap alone is honest if it takes references from objects that are
there. -/
theorem honest_of_heap_eq (hheap : w'.heap = w.heap) (hroots : ∀ o ∈ w'.roots, w.isAlive o = true) :
    w.Honest w' where
  size_le := Nat.le_of_eq (congrArg _ hheap.symm)
  roots o ho := by
    rw [hheap]
    exact ⟨Heap.lt_size_of_isAlive (hroots o ho), fun _ => hroots o ho⟩
  references y o ho _ := by
    rw [hheap] at ho
    exact .inl ho

/-- An object may be made with references to objects that are there. -/
theorem Rooted.honest_of_push (rooted : w.Rooted) {object : Object}
    (hobject : ∀ o ∈ object.references, w.isAlive o = true)
    (hheap : w'.heap = (w.heap.push object).2)
    (hroots : ∀ o ∈ w'.roots, o = (w.heap.push object).1 ∨ o ∈ w.roots) : w.Honest w' := by
  have hsize : w'.heap.size = w.heap.size + 1 := by rw [hheap, Heap.size_push]
  constructor
  case size_le => omega
  case roots =>
    intro o ho
    rcases hroots o ho with rfl | ho
    · have hnew : (w.heap.push object).1.index = w.heap.size := rfl
      omega
    · have := rooted o ho
      exact ⟨by omega, fun _ => rooted.isAlive ho⟩
  case references =>
    intro y o ho _
    have hy := Heap.lt_size_of_mem_references ho
    rw [hheap] at ho
    by_cases hold : y.index < w.heap.size
    · rw [Heap.get_push_of_lt hold] at ho
      exact .inl ho
    · have hnew : y = (w.heap.push object).1 :=
        congrArg ObjectRef.mk (show y.index = w.heap.size by omega)
      rw [hnew, Heap.get_push_self] at ho
      exact .inr (hobject o ho)

/-- An object may come to refer to objects that are there. -/
theorem Rooted.honest_setObject (rooted : w.Rooted) {object : Object}
    (hobject : ∀ x ∈ object.references, x ∈ (w.object o).references ∨ w.isAlive x = true) :
    w.Honest (w.setObject o object) := by
  have hsize : (w.setObject o object).heap.size = w.heap.size := Heap.size_set ..
  constructor
  case size_le => exact Nat.le_of_eq hsize.symm
  case roots =>
    intro x hx
    have hx : x ∈ w.roots := hx
    rw [hsize]
    exact ⟨rooted x hx, fun _ => rooted.isAlive hx⟩
  case references =>
    intro y x hx hlt
    have hget : (w.setObject o object).heap.get y = (w.heap.set o object).get y := rfl
    rw [hget] at hx
    by_cases hy : o = y
    · subst hy
      by_cases ho : o.index < w.heap.size
      · rw [Heap.get_set_self ho] at hx
        exact hobject x hx
      · rw [Heap.set_of_size_le (Nat.le_of_not_lt ho)] at hx
        exact .inl hx
    · rw [Heap.get_set_of_ne hy] at hx
      exact .inl hx

/-- A strong global reference may be made to an object that is there. -/
theorem Rooted.honest_perform (rooted : w.Rooted) (hb : w.bridge.isSome = true)
    (tidy : w.globals.Tidy) {op : Globals.Op ObjectRef}
    (hop : ∀ o, op = .strong (some o) → w.isAlive o = true) :
    w.Honest (w.setGlobals (w.globals.perform op).2) := by
  refine honest_of_heap_eq rfl fun o ho => ?_
  rw [mem_roots, globals_setGlobals hb] at ho
  rcases ho with ho | ho
  · exact rooted.isAlive (mem_roots.2 (.inl ho))
  · exact (tidy.mem_objects_of_perform ho).elim (hop o) fun ho =>
      rooted.isAlive (mem_roots.2 (.inr ho))

end GuestBoundary.World
