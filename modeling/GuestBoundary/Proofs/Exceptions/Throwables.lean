import GuestBoundary.Proofs.Classes.Registry
import GuestBoundary.Proofs.Effects.Guest

/-!
# Throwables

An object is throwable if its class inherits from the class of throwables.  In a registry that
`HasThrowables`, which every run starts with, each fault has such a class; no class that is defined
later takes its name.  An object stays throwable, whatever is done to it.
-/

namespace GuestBoundary

namespace Registry

variable {r r' : Registry} {c : ClassId}

/-- The class of throwables and the classes of faults are there. -/
structure HasThrowables (r : Registry) : Prop where
  known : CoreClass.throwable.id.index < r.size
  /-- Not everything is throwable. -/
  notRoot : (r.get CoreClass.throwable.id).isRoot = false
  notArray : (r.get CoreClass.throwable.id).element? = none
  object : r.isSubclass CoreClass.object.id CoreClass.throwable.id = false
  faults : ∀ k : FaultKind, ∃ c, r.find? k.className = some c ∧
    r.isSubclass c CoreClass.throwable.id = true

/-- The class of throwables is inherited from by name only. -/
theorem HasThrowables.isSubclass_eq (h : r.HasThrowables) (c : ClassId) :
    r.isSubclass c CoreClass.throwable.id =
      (r.get c).methodOrder.any fun s => s == CoreClass.throwable.id := by
  rw [isSubclass, inheritsWithin, h.notRoot, h.notArray, Bool.false_or]
  congr 1
  funext s
  cases (r.get s).element? <;> rw [Bool.or_false]

theorem HasThrowables.lt_size (h : r.HasThrowables)
    (hc : r.isSubclass c CoreClass.throwable.id = true) : c.index < r.size := by
  refine Nat.lt_of_not_le fun hle => ?_
  have hget : r.get c = default := by
    rw [get, Array.getElem?_eq_none hle, Option.getD_none]
  rw [h.isSubclass_eq, hget] at hc
  cases hc

/-- A registry that grows keeps its throwable classes. -/
theorem HasThrowables.isSubclass_mono (h : r.HasThrowables) (e : r.Extends r')
    (hc : c.index < r.size) :
    r'.isSubclass c CoreClass.throwable.id = r.isSubclass c CoreClass.throwable.id := by
  have hget : r'.get CoreClass.throwable.id = r.get CoreClass.throwable.id := e.get_eq _ h.known
  rw [h.isSubclass_eq, isSubclass, inheritsWithin, hget, h.notRoot, h.notArray, Bool.false_or,
    e.get_eq c hc]
  congr 1
  funext s
  cases (r'.get s).element? <;> rw [Bool.or_false]

theorem HasThrowables.mono (h : r.HasThrowables) (e : r.Extends r') : r'.HasThrowables where
  known := Nat.lt_of_lt_of_le h.known e.size_le
  notRoot := by rw [e.get_eq _ h.known, h.notRoot]
  notArray := by rw [e.get_eq _ h.known, h.notArray]
  object := by
    have hobject : CoreClass.object.id.index < r.size := Nat.lt_of_le_of_lt (Nat.zero_le _) h.known
    rw [h.isSubclass_mono e hobject, h.object]
  faults k := by
    obtain ⟨c, hfind, hc⟩ := h.faults k
    exact ⟨c, e.find?_eq hfind, by rw [h.isSubclass_mono e (h.lt_size hc), hc]⟩

/-- The classes that a run starts with. -/
theorem hasThrowables_basic : basic.HasThrowables := by
  have hall : CoreClass.throwable.id.index < basic.size ∧
      (basic.get CoreClass.throwable.id).isRoot = false ∧
      (basic.get CoreClass.throwable.id).element? = none ∧
      basic.isSubclass CoreClass.object.id CoreClass.throwable.id = false ∧
      ∀ k ∈ FaultKind.all, ∃ c ∈ basic.find? k.className,
        basic.isSubclass c CoreClass.throwable.id = true := by decide +kernel
  obtain ⟨known, notRoot, notArray, object, hfaults⟩ := hall
  refine ⟨known, notRoot, notArray, object, fun k => ?_⟩
  obtain ⟨c, hfind, hc⟩ := hfaults k k.mem_all
  exact ⟨c, hfind, hc⟩

end Registry

namespace World

variable {H : Type} {w w' : World H} {o : ObjectRef}

/-- The object is an instance of the class of throwables. -/
def IsThrowable (w : World H) (o : ObjectRef) : Prop := w.isInstance o CoreClass.throwable.id = true

/-- A reference to no object names nothing that is throwable. -/
theorem IsThrowable.lt_size (h : w.registry.HasThrowables) (ho : w.IsThrowable o) :
    o.index < w.heap.size := by
  refine Nat.lt_of_not_le fun hle => ?_
  have hclass : w.classOf o = CoreClass.object.id :=
    congrArg Object.classId (show w.heap.get o = default by
      rw [Heap.get, Array.getElem?_eq_none hle, Option.getD_none])
  rw [IsThrowable, isInstance, hclass, h.object] at ho
  cases ho

theorem IsThrowable.mono (h : w.registry.HasThrowables) (registry : w.registry.Extends w'.registry)
    (heap : w.heap.Grows w'.heap) (ho : w.IsThrowable o) : w'.IsThrowable o := by
  have hclass : w'.classOf o = w.classOf o := heap.classId_eq o (ho.lt_size h)
  rw [IsThrowable, isInstance, hclass, h.isSubclass_mono registry (h.lt_size ho)]
  exact ho

/-- What a fault surfaces as is throwable. -/
theorem isThrowable_materialize (h : w.registry.HasThrowables) (f : GuestFault) :
    (w.materialize f).2.IsThrowable (w.materialize f).1 := by
  obtain ⟨c, hfind, hc⟩ := h.faults f.kind
  have same := w.sameSide_materialize f
  rw [IsThrowable, isInstance, classOf_materialize, hfind, Option.getD_some,
    h.isSubclass_mono same.classes.registry (h.lt_size hc), hc]

end World

end GuestBoundary
