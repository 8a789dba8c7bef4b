import GuestBoundary.Heap.Basic

/-!
# Heaps that grow

Objects are never reclaimed, so what changes a heap leaves it with the objects that it had.  A heap
`Grows` if each of them keeps its class, `Develops` if those that stand for a class or a member do so
for good, and `Extends` to another one if each keeps all that it holds.
-/

namespace GuestBoundary

/-- Writing a field leaves an object its class. -/
theorem Object.classId_setField? {object object' : Object} {f : Field} {v : Value}
    (h : object.setField? f v = some object') : object'.classId = object.classId := by
  unfold Object.setField? at h
  split at h
  · split at h
    · cases h
      rfl
    · cases h
  · cases h

/-- What the object holds is the class or the member that it stands for. -/
def ObjectBody.StandsIn : ObjectBody → Prop
  | .mirror _ | .member _ => True
  | .slots _ | .array _ | .string _ => False

/-- Writing a field is not for objects that stand for something. -/
theorem Object.not_standsIn_setField? {object object' : Object} {f : Field} {v : Value}
    (h : object.setField? f v = some object') : ¬ object.body.StandsIn := by
  unfold Object.setField? at h
  split at h
  next hbody =>
    rw [hbody]
    exact id
  next => cases h

theorem Object.not_standsIn_elements? {object : Object} {e : Elements}
    (h : object.elements? = some e) : ¬ object.body.StandsIn := by
  unfold Object.elements? at h
  split at h
  next hbody =>
    rw [hbody]
    exact id
  next => cases h

namespace Heap

variable {h h' h'' : Heap} {o : ObjectRef} {object : Object}

theorem get_push_of_lt (ho : o.index < h.size) : (h.push object).2.get o = h.get o := by
  show (h.objects.push object)[o.index]?.getD default = _
  rw [Array.getElem?_push, if_neg (show o.index ≠ h.objects.size from Nat.ne_of_lt ho)]
  rfl

theorem get_push_self (h : Heap) (object : Object) :
    (h.push object).2.get (h.push object).1 = object := by
  show (h.objects.push object)[h.objects.size]?.getD default = _
  rw [Array.getElem?_push, if_pos rfl]
  rfl

theorem size_push (h : Heap) (object : Object) : (h.push object).2.size = h.size + 1 :=
  Array.size_push _

theorem size_set (h : Heap) (o : ObjectRef) (object : Object) : (h.set o object).size = h.size :=
  Array.size_setIfInBounds ..

theorem get_set_self (ho : o.index < h.size) (object : Object) :
    (h.set o object).get o = object := by
  show (h.objects.setIfInBounds o.index object)[o.index]?.getD default = _
  rw [Array.getElem?_setIfInBounds_self_of_lt ho]
  rfl

theorem get_set_of_ne {o' : ObjectRef} (hne : o ≠ o') (object : Object) :
    (h.set o object).get o' = h.get o' := by
  have : o.index ≠ o'.index := fun e => hne (by cases o; cases o'; exact congrArg ObjectRef.mk e)
  show (h.objects.setIfInBounds o.index object)[o'.index]?.getD default = _
  rw [Array.getElem?_setIfInBounds_ne this]
  rfl

/-- There is nothing to replace where there is no object. -/
theorem set_of_size_le (ho : h.size ≤ o.index) (object : Object) : h.set o object = h := by
  show Heap.mk (h.objects.setIfInBounds o.index object) = h
  rw [Array.setIfInBounds_eq_of_size_le ho]

/-- An object that is replaced by itself. -/
theorem set_get (h : Heap) (o : ObjectRef) : h.set o (h.get o) = h := by
  by_cases ho : o.index < h.size
  · have hi : o.index < h.objects.size := ho
    refine congrArg Heap.mk (Array.ext_getElem? fun i => ?_)
    rw [Array.getElem?_setIfInBounds]
    split
    next he => rw [← he, get, Array.getElem?_eq_getElem hi, Option.getD_some]
    next => rfl
  · exact set_of_size_le (Nat.not_lt.1 ho) _

/-! ## Objects that stay as they are -/

/-- The objects of the first heap are in the second one as they were. -/
structure Extends (h h' : Heap) : Prop where
  size_le : h.size ≤ h'.size
  get_eq : ∀ o : ObjectRef, o.index < h.size → h'.get o = h.get o

namespace Extends

theorem refl (h : Heap) : Extends h h := ⟨Nat.le_refl _, fun _ _ => rfl⟩

theorem trans (a : Extends h h') (b : Extends h' h'') : Extends h h'' :=
  ⟨Nat.le_trans a.size_le b.size_le, fun o ho =>
    (b.get_eq o (Nat.lt_of_lt_of_le ho a.size_le)).trans (a.get_eq o ho)⟩

theorem push (h : Heap) (object : Object) : Extends h (h.push object).2 :=
  ⟨size_push h object ▸ Nat.le_succ _, fun _ ho => get_push_of_lt ho⟩

/-- What came after the first heap may be replaced. -/
theorem set (a : Extends h h') (ho : h.size ≤ o.index) (object : Object) :
    Extends h (h'.set o object) := by
  refine ⟨size_set h' o object ▸ a.size_le, fun o' ho' => ?_⟩
  have hne : o ≠ o' := by
    rintro rfl
    omega
  rw [get_set_of_ne hne, a.get_eq o' ho']

end Extends

/-! ## Objects that keep their classes -/

/-- The objects of the first heap are in the second one, each of the class that it was. -/
structure Grows (h h' : Heap) : Prop where
  size_le : h.size ≤ h'.size
  classId_eq : ∀ o : ObjectRef, o.index < h.size → (h'.get o).classId = (h.get o).classId

theorem Extends.grows (a : Extends h h') : Grows h h' :=
  ⟨a.size_le, fun o ho => congrArg Object.classId (a.get_eq o ho)⟩

namespace Grows

theorem refl (h : Heap) : Grows h h := (Extends.refl h).grows

theorem trans (a : Grows h h') (b : Grows h' h'') : Grows h h'' :=
  ⟨Nat.le_trans a.size_le b.size_le, fun o ho =>
    (b.classId_eq o (Nat.lt_of_lt_of_le ho a.size_le)).trans (a.classId_eq o ho)⟩

theorem push (h : Heap) (object : Object) : Grows h (h.push object).2 :=
  (Extends.push h object).grows

theorem set (h : Heap) {o : ObjectRef} {object : Object}
    (hc : object.classId = (h.get o).classId) : Grows h (h.set o object) := by
  refine ⟨Nat.le_of_eq (size_set h o object).symm, fun o' ho => ?_⟩
  by_cases he : o = o'
  · subst he
    rw [get_set_self ho, hc]
  · rw [get_set_of_ne he]

end Grows

/-! ## Objects that stand for something -/

/-- The objects of the first heap are in the second one, each of the class that it was and with the
class or the member that it stood for. -/
structure Develops (h h' : Heap) : Prop extends Grows h h' where
  body_eq : ∀ o : ObjectRef, o.index < h.size → (h.get o).body.StandsIn →
    (h'.get o).body = (h.get o).body

theorem Extends.develops (a : Extends h h') : Develops h h' :=
  ⟨a.grows, fun o ho _ => congrArg Object.body (a.get_eq o ho)⟩

namespace Develops

theorem refl (h : Heap) : Develops h h := (Extends.refl h).develops

theorem trans (a : Develops h h') (b : Develops h' h'') : Develops h h'' where
  toGrows := a.toGrows.trans b.toGrows
  body_eq o ho hs := by
    have hbody := a.body_eq o ho hs
    exact (b.body_eq o (Nat.lt_of_lt_of_le ho a.size_le) (hbody.symm ▸ hs)).trans hbody

theorem push (h : Heap) (object : Object) : Develops h (h.push object).2 :=
  (Extends.push h object).develops

theorem set (h : Heap) {o : ObjectRef} {object : Object}
    (hc : object.classId = (h.get o).classId)
    (hb : (h.get o).body.StandsIn → object.body = (h.get o).body) :
    Develops h (h.set o object) where
  toGrows := .set h hc
  body_eq o' ho hs := by
    by_cases he : o = o'
    · subst he
      rw [get_set_self ho, hb hs]
    · rw [get_set_of_ne he]

end Develops

end Heap

end GuestBoundary
