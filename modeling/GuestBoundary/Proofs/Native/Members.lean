import GuestBoundary.Bridge
import Mathlib.Data.List.Induction
import Mathlib.Data.List.Nodup

/-!
# Numbers of members

The index of a table is the inverse of its list of members (`MemberTable.Indexed`).  A table numbers
members from one upwards and only ever grows (`MemberTable.Extends`), so a number names its member
for good, and the member has that number for good (`Extends.find`, `Indexed.idFor_of_find`).  After
any operations the numbers are those of the members in the order in which they were first used
(`members_run`).  A number has 64 bits; that a table has room for its members is assumed where it
matters.
-/

namespace GuestBoundary

namespace MemberTable

variable {α : Type} {t t' t'' : MemberTable α} {m m' : α} {id : UInt64} {i : Nat}

/-! ## Numbers and members -/

/-- There is a number for every member. -/
def Fits (t : MemberTable α) : Prop := t.size < UInt64.size

theorem find_eq_ok_iff :
    t.find id = .ok m ↔ ∃ i, id.toNat = i + 1 ∧ t.members[i]? = some m := by
  unfold find
  cases hid : id.toNat with
  | zero => simp
  | succ i =>
    cases hm : t.members[i]? with
    | some m' => simp [hm]
    | none => simp [hm]

/-- What is not a number of the table is refused. -/
theorem find_eq_error_iff :
    t.find id = .error (.invalidMemberId t.sort id) ↔ id = 0 ∨ t.size < id.toNat := by
  unfold find size
  cases hid : id.toNat with
  | zero => simp [UInt64.toNat_inj.1 (show id.toNat = (0 : UInt64).toNat from hid)]
  | succ i =>
    have hne : id ≠ 0 := by
      rintro rfl
      cases hid
    cases hm : t.members[i]? with
    | some m =>
      have hlt := (Array.getElem?_eq_some_iff.1 hm).1
      refine iff_of_false (fun h => ?_) (not_or.2 ⟨hne, by omega⟩)
      simp [hm] at h
    | none =>
      have hle := Array.getElem?_eq_none_iff.1 hm
      simp [hm, Nat.lt_succ_of_le hle]

theorem toNat_ofNat_succ (h : t.Fits) (hi : t.members[i]? = some m) :
    (UInt64.ofNat (i + 1)).toNat = i + 1 := by
  have hlt := (Array.getElem?_eq_some_iff.1 hi).1
  have hsize : t.members.size < UInt64.size := h
  exact UInt64.toNat_ofNat_of_lt' (Nat.lt_of_le_of_lt hlt hsize)

theorem find_of_getElem? (h : t.Fits) (hi : t.members[i]? = some m) :
    t.find (UInt64.ofNat (i + 1)) = .ok m :=
  find_eq_ok_iff.2 ⟨i, toNat_ofNat_succ h hi, hi⟩

/-! ## The index -/

section

variable [DecidableEq α]

/-- The index has the number of each member, and of nothing else. -/
def Indexed (t : MemberTable α) : Prop :=
  ∀ m id, t.ids.lookup m = some id ↔ ∃ i, id = i + 1 ∧ t.members[i]? = some m

theorem indexed_empty (sort : String) : (empty sort : MemberTable α).Indexed := by
  simp [Indexed, empty]

omit [DecidableEq α] in
@[simp] theorem size_push (t : MemberTable α) (m : α) : (t.push m).size = t.size + 1 :=
  Array.size_push ..

theorem Indexed.not_mem (h : t.Indexed) (hm : t.ids.lookup m = none) : m ∉ t.members.toList := by
  intro hmem
  obtain ⟨i, hi⟩ := List.mem_iff_getElem?.1 hmem
  rw [Array.getElem?_toList] at hi
  have hid := (h m (i + 1)).2 ⟨i, rfl, hi⟩
  rw [hm] at hid
  cases hid

/-- The index stays the inverse of the members when one is added that was not there. -/
theorem Indexed.push (h : t.Indexed) (hm : m ∉ t.members.toList) : (t.push m).Indexed := by
  intro m' id
  have hlast : (t.push m).members[t.members.size]? = some m := Array.getElem?_push_size ..
  have hold : ∀ {i}, i < t.members.size → (t.push m).members[i]? = t.members[i]? := fun hi => by
    rw [MemberTable.push, Array.getElem?_push_lt hi, Array.getElem?_eq_getElem hi]
  have hlookup : (t.push m).ids.lookup m' =
      if m' = m then some (t.size + 1) else t.ids.lookup m' := by
    rw [MemberTable.push, List.lookup_cons, Array.size_push]
    by_cases hsame : m' = m
    · simp [hsame, size]
    · rw [beq_false_of_ne hsame, if_neg hsame]
  rw [hlookup]
  by_cases hsame : m' = m
  · subst hsame
    rw [if_pos rfl, Option.some_inj]
    constructor
    · rintro rfl
      exact ⟨_, rfl, hlast⟩
    · rintro ⟨i, rfl, hi⟩
      have hlt := (Array.getElem?_eq_some_iff.1 hi).1
      rw [MemberTable.push, Array.size_push] at hlt
      rcases Nat.lt_succ_iff_lt_or_eq.1 hlt with hlt | rfl
      · rw [hold hlt, ← Array.getElem?_toList] at hi
        exact absurd (List.mem_of_getElem? hi) hm
      · rfl
  · rw [if_neg hsame, h m' id]
    refine exists_congr fun i => and_congr_right fun _ => ?_
    rcases Nat.lt_trichotomy i t.members.size with hlt | rfl | hgt
    · rw [hold hlt]
    · rw [hlast, Array.getElem?_eq_none (Nat.le_refl _)]
      simp [Ne.symm hsame]
    · rw [Array.getElem?_eq_none (Nat.le_of_lt hgt), Array.getElem?_eq_none]
      rw [MemberTable.push, Array.size_push]
      exact hgt

end

/-! ## Tables that grow -/

section

variable [DecidableEq α]

/-- The numbers of the first table name the same members in the second one. -/
structure Extends (t t' : MemberTable α) : Prop where
  sort_eq : t'.sort = t.sort
  initial : t.members.toList <+: t'.members.toList
  indexed : t.Indexed → t'.Indexed

namespace Extends

theorem refl (t : MemberTable α) : t.Extends t := ⟨rfl, List.prefix_rfl, id⟩

theorem trans (h : t.Extends t') (h' : t'.Extends t'') : t.Extends t'' :=
  ⟨h'.sort_eq.trans h.sort_eq, List.IsPrefix.trans h.initial h'.initial,
    fun hx => h'.indexed (h.indexed hx)⟩

theorem size_le (h : t.Extends t') : t.size ≤ t'.size := by
  have hle := List.IsPrefix.length_le h.initial
  rwa [Array.length_toList, Array.length_toList] at hle

theorem fits (h : t.Extends t') (ht : t'.Fits) : t.Fits := Nat.lt_of_le_of_lt h.size_le ht

/-- A number names its member for good. -/
theorem find (h : t.Extends t') (hid : t.find id = .ok m) : t'.find id = .ok m := by
  obtain ⟨i, hnumber, hi⟩ := find_eq_ok_iff.1 hid
  refine find_eq_ok_iff.2 ⟨i, hnumber, ?_⟩
  obtain ⟨rest, hrest⟩ := h.initial
  rw [← Array.getElem?_toList] at hi ⊢
  rw [← hrest, List.getElem?_append_left (List.getElem?_eq_some_iff.1 hi).1, hi]

end Extends

/-! ## Numbering a member -/

/-- A member has a number already, or gets the next one. -/
theorem Indexed.idFor_cases (h : t.Indexed) (m : α) :
    (∃ i, t.members[i]? = some m ∧ t.idFor m = (UInt64.ofNat (i + 1), t)) ∨
    (m ∉ t.members.toList ∧ t.idFor m = (UInt64.ofNat (t.size + 1), t.push m)) := by
  cases hid : t.ids.lookup m with
  | some id =>
    obtain ⟨i, rfl, hi⟩ := (h m id).1 hid
    exact .inl ⟨i, hi, by rw [idFor, hid]⟩
  | none =>
    refine .inr ⟨h.not_mem hid, ?_⟩
    rw [idFor, hid, ← size_push]

/-- The number that a member gets names it. -/
theorem Indexed.find_idFor (h : t.Indexed) (hfits : (t.idFor m).2.Fits) :
    (t.idFor m).2.find (t.idFor m).1 = .ok m := by
  obtain ⟨i, hi, heq⟩ | ⟨-, heq⟩ := h.idFor_cases m
  · rw [heq] at hfits ⊢
    exact find_of_getElem? hfits hi
  · rw [heq] at hfits ⊢
    exact find_of_getElem? hfits (Array.getElem?_push_size ..)

/-- A member that a number names has that number. -/
theorem Indexed.idFor_of_find (h : t.Indexed) (hid : t.find id = .ok m) :
    t.idFor m = (id, t) := by
  obtain ⟨i, hnumber, hi⟩ := find_eq_ok_iff.1 hid
  rw [idFor, (h m (i + 1)).2 ⟨i, rfl, hi⟩, ← hnumber]
  exact congrArg (·, t) UInt64.ofNat_toNat

theorem Extends.idFor (t : MemberTable α) (m : α) : t.Extends (t.idFor m).2 := by
  cases hid : t.ids.lookup m with
  | some id =>
    rw [MemberTable.idFor, hid]
    exact .refl t
  | none =>
    rw [MemberTable.idFor, hid]
    exact ⟨rfl, ⟨[m], Array.toList_push.symm⟩, fun hx => hx.push (hx.not_mem hid)⟩

/-- A member that has a number keeps it, and the number its member. -/
theorem Extends.idFor_later (h : (t.idFor m).2.Extends t') (hx : t.Indexed) (ht : t'.Fits) :
    t'.find (t.idFor m).1 = .ok m ∧ t'.idFor m = ((t.idFor m).1, t') := by
  have hfind := h.find (hx.find_idFor (h.fits ht))
  exact ⟨hfind, (h.indexed ((Extends.idFor t m).indexed hx)).idFor_of_find hfind⟩

/-! ## Any operations -/

/-- What a table is asked. -/
inductive Op (α : Type) where
  /-- The number of a member. -/
  | idFor (m : α)
  /-- The member that a number names. -/
  | find (id : UInt64)

omit [DecidableEq α] in
/-- The members whose numbers were asked for. -/
def used (ops : List (Op α)) : List α :=
  ops.filterMap fun
    | .idFor m => some m
    | .find _ => none

/-- The table after an operation. -/
def after (t : MemberTable α) : Op α → MemberTable α
  | .idFor m => (t.idFor m).2
  | .find _ => t

/-- A new table after some operations. -/
def run (sort : String) (ops : List (Op α)) : MemberTable α := ops.foldl after (empty sort)

theorem extends_after (t : MemberTable α) : ∀ op : Op α, t.Extends (t.after op)
  | .idFor m => .idFor t m
  | .find _ => .refl t

theorem extends_foldl (t : MemberTable α) (ops : List (Op α)) : t.Extends (ops.foldl after t) := by
  induction ops generalizing t with
  | nil => exact .refl t
  | cons op ops ih => exact (extends_after t op).trans (ih _)

theorem run_append (sort : String) (ops later : List (Op α)) :
    run sort (ops ++ later) = later.foldl after (run sort ops) := List.foldl_append

theorem indexed_run (sort : String) (ops : List (Op α)) : (run sort ops).Indexed :=
  (extends_foldl (empty sort) ops).indexed (indexed_empty sort)

theorem sort_run (sort : String) (ops : List (Op α)) : (run sort ops).sort = sort :=
  (extends_foldl (empty sort) ops).sort_eq

theorem eraseDups_concat (l : List α) (m : α) :
    (l ++ [m]).eraseDups = if m ∈ l then l.eraseDups else l.eraseDups ++ [m] := by
  rw [List.eraseDups_append]
  by_cases h : m ∈ l <;> simp [List.removeAll, h, List.eraseDups_cons]

/-- The table holds the members in the order in which they were first used. -/
theorem members_run (sort : String) (ops : List (Op α)) :
    (run sort ops).members.toList = (used ops).eraseDups := by
  induction ops using List.reverseRecOn with
  | nil => rfl
  | append_singleton ops op ih =>
    rw [run_append]
    cases op with
    | find id =>
      have hused : used (ops ++ [.find id]) = used ops := by simp [used]
      rw [hused]
      exact ih
    | idFor m =>
      have hused : used (ops ++ [.idFor m]) = used ops ++ [m] := by simp [used]
      have hmem : m ∈ (run sort ops).members.toList ↔ m ∈ used ops := by
        rw [ih, List.mem_eraseDups]
      rw [hused, eraseDups_concat]
      show ((run sort ops).idFor m).2.members.toList = _
      obtain ⟨i, hi, heq⟩ | ⟨hnew, heq⟩ := (indexed_run sort ops).idFor_cases m
      · have hold : m ∈ used ops :=
          hmem.1 (List.mem_of_getElem? (by rw [Array.getElem?_toList, hi]))
        rw [heq, if_pos hold, ih]
      · rw [heq, if_neg fun hold => hnew (hmem.2 hold), push, Array.toList_push, ih]

/-- A table that numbers its members from one upwards, each once and for good: what it answers after
some operations, and after more of them. -/
structure Numbers (sort : String) (ops : List (Op α)) : Prop where
  /-- The index gives the number of each member, and of nothing else. -/
  indexed : (run sort ops).Indexed
  /-- There are as many numbers as members that were used. -/
  size : (run sort ops).size = (used ops).eraseDups.length
  /-- A member that is used for the first time gets the next number. -/
  first : ∀ m, m ∉ used ops →
    ((run sort ops).idFor m).1 = UInt64.ofNat ((run sort ops).size + 1) ∧
      ((run sort ops).idFor m).2.size = (run sort ops).size + 1
  /-- The members have the numbers 1, 2, … in the order in which they were first used, and using
  them again changes nothing. -/
  again : ∀ i m, (used ops).eraseDups[i]? = some m →
    (run sort ops).idFor m = (UInt64.ofNat (i + 1), run sort ops) ∧
      (UInt64.ofNat (i + 1)).toNat = i + 1
  injective : ∀ m ∈ used ops, ∀ m' ∈ used ops,
    ((run sort ops).idFor m).1 = ((run sort ops).idFor m').1 → m = m'
  /-- The number that a member gets names it, and stays its number, after whatever operations. -/
  stable : ∀ m later, (run sort (ops ++ .idFor m :: later)).Fits →
    (run sort (ops ++ .idFor m :: later)).find ((run sort ops).idFor m).1 = .ok m ∧
      (run sort (ops ++ .idFor m :: later)).idFor m =
        (((run sort ops).idFor m).1, run sort (ops ++ .idFor m :: later))
  refused : ∀ id, (run sort ops).find id = .error (.invalidMemberId sort id) ↔
    id = 0 ∨ (run sort ops).size < id.toNat

theorem numbers_run (sort : String) (ops : List (Op α)) (h : (run sort ops).Fits) :
    Numbers sort ops := by
  have hmembers := members_run sort ops
  have hfound : ∀ {i m}, (used ops).eraseDups[i]? = some m →
      (run sort ops).members[i]? = some m := fun hi => by
    rw [← Array.getElem?_toList, hmembers, hi]
  constructor
  case indexed => exact indexed_run sort ops
  case size => rw [size, ← Array.length_toList, hmembers]
  case first =>
    intro m hm
    obtain ⟨i, hi, -⟩ | ⟨-, heq⟩ := (indexed_run sort ops).idFor_cases m
    · have hmem := List.mem_of_getElem? (by rw [Array.getElem?_toList, hi])
      rw [hmembers, List.mem_eraseDups] at hmem
      exact absurd hmem hm
    · rw [heq]
      exact ⟨rfl, size_push ..⟩
  case again =>
    intro i m hi
    exact ⟨(indexed_run sort ops).idFor_of_find (find_of_getElem? h (hfound hi)),
      toNat_ofNat_succ h (hfound hi)⟩
  case injective =>
    intro m hm m' hm' heq
    have hfind : ∀ m ∈ used ops, (run sort ops).find ((run sort ops).idFor m).1 = .ok m := by
      intro m hm
      obtain ⟨i, hi⟩ := List.mem_iff_getElem?.1 (List.mem_eraseDups.2 hm)
      have hfind := find_of_getElem? h (hfound hi)
      rwa [(indexed_run sort ops).idFor_of_find hfind]
    have hsame := hfind m hm
    rw [heq, hfind m' hm'] at hsame
    exact (Except.ok.inj hsame).symm
  case stable =>
    intro m later hfits
    have hlater : ((run sort ops).idFor m).2.Extends (run sort (ops ++ .idFor m :: later)) := by
      rw [run_append]
      exact extends_foldl _ later
    exact hlater.idFor_later (indexed_run sort ops) hfits
  case refused =>
    intro id
    have hrefused : (run sort ops).find id = .error (.invalidMemberId (run sort ops).sort id) ↔
        id = 0 ∨ (run sort ops).size < id.toNat := find_eq_error_iff
    rwa [sort_run] at hrefused

end

end MemberTable

/-! ## Bridges that grow -/

/-- The numbers of methods and fields are found by their indices. -/
structure Bridge.Indexed (b : Bridge) : Prop where
  methods : b.methods.Indexed
  fields : b.fields.Indexed

/-- There is a number for every method and every field. -/
structure Bridge.Fits (b : Bridge) : Prop where
  methods : b.methods.Fits
  fields : b.fields.Fits

theorem Bridge.indexed_empty (config : Config) : (empty config).Indexed :=
  ⟨MemberTable.indexed_empty _, MemberTable.indexed_empty _⟩

/-- The numbers of the first bridge name the same members in the second one, whatever else is
different. -/
structure Bridge.Develops (b b' : Bridge) : Prop where
  config : b'.config = b.config
  methods : b.methods.Extends b'.methods
  fields : b.fields.Extends b'.fields

namespace Bridge.Develops

variable {b b' b'' : Bridge} {r : Registry} {m : MethodRef} {address : Address} {x : Binding}

/-- A change that leaves the numbers alone. -/
theorem of_eq (config : b'.config = b.config) (methods : b'.methods = b.methods)
    (fields : b'.fields = b.fields) : b.Develops b' :=
  ⟨config, methods ▸ .refl _, fields ▸ .refl _⟩

theorem refl (b : Bridge) : b.Develops b := .of_eq rfl rfl rfl

theorem trans (h : b.Develops b') (h' : b'.Develops b'') : b.Develops b'' :=
  ⟨h'.config.trans h.config, h.methods.trans h'.methods, h.fields.trans h'.fields⟩

theorem indexed (h : b.Develops b') (hb : b.Indexed) : b'.Indexed :=
  ⟨h.methods.indexed hb.methods, h.fields.indexed hb.fields⟩

theorem bind (h : b.bind r m address = .ok (x, b')) : b.Develops b' := by
  unfold Bridge.bind at h
  split at h <;> cases h
  exact .of_eq rfl rfl rfl

theorem register {c : ClassId} {name descriptor : String}
    (h : b.register r c name descriptor address = .ok (x, b')) : b.Develops b' := by
  unfold Bridge.register at h
  split at h
  · cases h
  · split at h
    · cases h
    · split at h
      · cases h
      · have hunbind : ∀ m, b.Develops (b.unbind r m) := fun _ => .of_eq rfl rfl rfl
        exact (hunbind _).trans (bind h)

theorem resolve (h : b.resolve r m = .ok (x, b')) : b.Develops b' := by
  unfold Bridge.resolve at h
  split at h
  · cases h
    exact .refl b
  · split at h
    · exact bind h
    · cases h

end Bridge.Develops

end GuestBoundary
