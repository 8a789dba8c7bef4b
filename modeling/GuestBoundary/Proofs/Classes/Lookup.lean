import GuestBoundary.Heap.Basic
import GuestBoundary.Proofs.Classes.Names

/-!
# Members that are found again

A class looks for its members in classes that were defined before it.  Definitions that come later
change none of them, so the method or the field that a name and a descriptor stand for in a class is
what they stand for ever after (`Extends.resolveMember`).
-/

namespace GuestBoundary

/-- Methods or fields. -/
inductive MemberSort where
  | method
  | field
  deriving DecidableEq

def Member.sort : Member → MemberSort
  | .method _ => .method
  | .field _ => .field

namespace Registry

variable {r r' : Registry} {c : ClassId} {m m' : Member} {s : MemberSort}
  {name descriptor : String} {isStatic isStatic' : Bool}

/-! ## Where members are looked for -/

theorem findSome?_congr {α β : Type} {f g : α → Option β} {l : List α}
    (h : ∀ x ∈ l, f x = g x) : l.findSome? f = l.findSome? g := by
  induction l with
  | nil => rfl
  | cons x l ih =>
    rw [List.findSome?_cons, List.findSome?_cons, h x List.mem_cons_self,
      ih fun y hy => h y (List.mem_cons_of_mem x hy)]

theorem Extends.findField?_eq (h : Extends r r') (hc : c.index < r.size)
    (horder : ∀ d ∈ (r.get c).fieldOrder, d.index < r.size) (name descriptor : String) :
    r'.findField? c name descriptor = r.findField? c name descriptor := by
  rw [findField?, findField?, h.get_eq c hc]
  refine findSome?_congr fun d hd => ?_
  rw [declaredField?, declaredField?, h.get_eq d (horder d hd)]

theorem Extends.findMethod?_eq (h : Extends r r') (hc : c.index < r.size)
    (horder : ∀ d ∈ (r.get c).methodOrder, d.index < r.size) (name descriptor : String) :
    r'.findMethod? c name descriptor = r.findMethod? c name descriptor := by
  rw [findMethod?, findMethod?, h.get_eq c hc]
  refine findSome?_congr fun d hd => ?_
  rw [declaredMethod?, declaredMethod?, h.get_eq d (horder d hd)]

/-- The class in which a field is found is one that was looked through. -/
theorem searches_of_findField? {f : FieldRef} (h : r.findField? c name descriptor = some f) :
    (r.get c).Searches f.owner := by
  obtain ⟨d, hd, hfound⟩ := List.exists_of_findSome?_eq_some h
  obtain ⟨i, -, rfl⟩ := Option.map_eq_some_iff.1 hfound
  exact .inr hd

theorem searches_of_findMethod? {n : MethodRef} (h : r.findMethod? c name descriptor = some n) :
    (r.get c).Searches n.owner := by
  obtain ⟨d, hd, hfound⟩ := List.exists_of_findSome?_eq_some h
  obtain ⟨i, -, rfl⟩ := Option.map_eq_some_iff.1 hfound
  exact .inl hd

/-- A class that is not there looks for nothing. -/
theorem lt_size_of_searches {d : ClassId} (h : (r.get c).Searches d) : c.index < r.size := by
  refine Nat.lt_of_not_le fun hle => ?_
  rw [get_of_le hle] at h
  rcases h with h | h <;> cases h

/-! ## Members -/

/-- The first member of a sort with a name and a descriptor that a class declares or inherits. -/
def findMember? (r : Registry) (s : MemberSort) (c : ClassId) (name descriptor : String) :
    Option Member :=
  match s with
  | .method => (r.findMethod? c name descriptor).map .method
  | .field => (r.findField? c name descriptor).map .field

/-- Whether a member is static. -/
def isStaticMember (r : Registry) : Member → Bool
  | .method m => (r.method m).isStatic
  | .field f => (r.field f).isStatic

/-- The member that a name and a descriptor stand for, static or not as asked. -/
def resolveMember (r : Registry) (s : MemberSort) (c : ClassId) (name descriptor : String)
    (isStatic : Bool) : Except GuestFault Member :=
  match s with
  | .method => (r.resolveMethod c name descriptor isStatic).map .method
  | .field => (r.resolveField c name descriptor isStatic).map .field

theorem resolveMethod_eq_ok_iff {n : MethodRef} :
    r.resolveMethod c name descriptor isStatic = .ok n ↔
      r.findMethod? c name descriptor = some n ∧ (r.method n).isStatic = isStatic := by
  have hfilter : (r.findMethod? c name descriptor).filter
      (fun n => (r.method n).isStatic == isStatic) = some n ↔ _ := Option.filter_eq_some_iff
  rw [beq_iff_eq] at hfilter
  rw [← hfilter, resolveMethod]
  split
  next h => rw [h, Except.ok.injEq, Option.some.injEq]
  next h => rw [h]; exact ⟨nofun, nofun⟩

theorem resolveField_eq_ok_iff {f : FieldRef} :
    r.resolveField c name descriptor isStatic = .ok f ↔
      r.findField? c name descriptor = some f ∧ (r.field f).isStatic = isStatic := by
  have hfilter : (r.findField? c name descriptor).filter
      (fun f => (r.field f).isStatic == isStatic) = some f ↔ _ := Option.filter_eq_some_iff
  rw [beq_iff_eq] at hfilter
  rw [← hfilter, resolveField]
  split
  next h => rw [h, Except.ok.injEq, Option.some.injEq]
  next h => rw [h]; exact ⟨nofun, nofun⟩

theorem map_eq_ok_iff {ε α β : Type} {x : Except ε α} {f : α → β} {y : β} :
    x.map f = .ok y ↔ ∃ a, x = .ok a ∧ f a = y := by
  cases x with
  | error e => exact ⟨nofun, nofun⟩
  | ok a => simp [Except.map]

theorem resolveMember_eq_ok_iff : r.resolveMember s c name descriptor isStatic = .ok m ↔
    r.findMember? s c name descriptor = some m ∧ r.isStaticMember m = isStatic := by
  cases s with
  | method =>
    simp only [resolveMember, findMember?, map_eq_ok_iff, Option.map_eq_some_iff,
      resolveMethod_eq_ok_iff]
    constructor
    · rintro ⟨n, ⟨hn, hstatic⟩, rfl⟩
      exact ⟨⟨n, hn, rfl⟩, hstatic⟩
    · rintro ⟨⟨n, hn, rfl⟩, hstatic⟩
      exact ⟨n, ⟨hn, hstatic⟩, rfl⟩
  | field =>
    simp only [resolveMember, findMember?, map_eq_ok_iff, Option.map_eq_some_iff,
      resolveField_eq_ok_iff]
    constructor
    · rintro ⟨f, ⟨hf, hstatic⟩, rfl⟩
      exact ⟨⟨f, hf, rfl⟩, hstatic⟩
    · rintro ⟨⟨f, hf, rfl⟩, hstatic⟩
      exact ⟨f, ⟨hf, hstatic⟩, rfl⟩

theorem sort_of_findMember? (h : r.findMember? s c name descriptor = some m) : m.sort = s := by
  cases s <;> obtain ⟨n, -, rfl⟩ := Option.map_eq_some_iff.1 h <;> rfl

/-! ## Members that are found again -/

/-- What is found is found ever after, and is as static as it was. -/
theorem Extends.findMember? (h : Extends r r') (hr : r.Searchable)
    (hm : r.findMember? s c name descriptor = some m) :
    r'.findMember? s c name descriptor = some m ∧ r'.isStaticMember m = r.isStaticMember m := by
  cases s with
  | method =>
    obtain ⟨n, hn, rfl⟩ := Option.map_eq_some_iff.1 hm
    have hsearches := searches_of_findMethod? hn
    have hc := lt_size_of_searches hsearches
    have hfound := h.findMethod?_eq hc (fun d hd => hr c d (.inl hd)) name descriptor
    refine ⟨congrArg (Option.map Member.method) (hfound.trans hn), ?_⟩
    rw [isStaticMember, h.method_eq (hr c _ hsearches), isStaticMember]
  | field =>
    obtain ⟨f, hf, rfl⟩ := Option.map_eq_some_iff.1 hm
    have hsearches := searches_of_findField? hf
    have hc := lt_size_of_searches hsearches
    have hfound := h.findField?_eq hc (fun d hd => hr c d (.inr hd)) name descriptor
    refine ⟨congrArg (Option.map Member.field) (hfound.trans hf), ?_⟩
    rw [isStaticMember, field, h.get_eq _ (hr c _ hsearches), isStaticMember, field]

/-- What a name and a descriptor stand for in a class they stand for ever after. -/
theorem Extends.resolveMember (h : Extends r r') (hr : r.Searchable)
    (hm : r.resolveMember s c name descriptor isStatic = .ok m) :
    r'.resolveMember s c name descriptor isStatic = .ok m := by
  obtain ⟨hfind, hstatic⟩ := resolveMember_eq_ok_iff.1 hm
  obtain ⟨hfind', hsame⟩ := h.findMember? hr hfind
  exact resolveMember_eq_ok_iff.2 ⟨hfind', hsame.trans hstatic⟩

/-- They stand for nothing else, static or not. -/
theorem Extends.resolveMember_unique (h : Extends r r') (hr : r.Searchable)
    (hm : r.resolveMember s c name descriptor isStatic = .ok m)
    (hm' : r'.resolveMember s c name descriptor isStatic' = .ok m') : m' = m := by
  have hfind := (h.findMember? hr (resolveMember_eq_ok_iff.1 hm).1).1
  rw [(resolveMember_eq_ok_iff.1 hm').1] at hfind
  exact Option.some.inj hfind

end Registry

end GuestBoundary
