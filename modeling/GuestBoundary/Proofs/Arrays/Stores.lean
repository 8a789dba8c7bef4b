import GuestBoundary.Proofs.Guest.Runs
import GuestBoundary.Proofs.Heap.Elements
import GuestBoundary.Proofs.Interface.FieldValues

/-!
# Stores into arrays of references

An array of references is made, read and written through three functions.  What may be written is
decided by the class of the array itself, whatever class the caller takes it for: a store is in
order (`Accepts`) or there is a reason to refuse it (`Refuses`).  `Does` lists all that a call can
do to a state, so what is kept by each of these is kept by every call (`Does.arraysFit`) and in runs
of calls, also when classes and other objects come in between (`Reached.arraysFit`).
-/

namespace GuestBoundary

variable {H ε : Type}

open Interface Entry

namespace World

variable {w : World H} {h value : Handle} {i : Int32} {o : ObjectRef} {c : ClassId}
  {items : List (Option ObjectRef)}

/-! ## Stores that are in order -/

/-- The index is one of `total` elements. -/
def InRange (i : Int32) (total : Nat) : Prop := 0 ≤ i.toInt ∧ i.toInt < total

instance (i : Int32) (total : Nat) : Decidable (InRange i total) :=
  inferInstanceAs (Decidable (_ ∧ _))

/-- The handle stands for an array of references that has the index, and the value is null or an
instance of the class that this array has its elements of. -/
structure Accepts (w : World H) (h : Handle) (i : Int32) (value : Handle) (o : ObjectRef)
    (items : List (Option ObjectRef)) (c : ClassId) : Prop where
  array : w.resolve h = some o
  elements : (w.object o).elements? = some (.references items)
  elementClass : w.elementClass? o = some c
  index : InRange i items.length
  instances : ∀ v, w.resolve value = some v → w.isInstance v c = true

/-- Why a store is refused, and as what. -/
inductive Refuses (w : World H) (h : Handle) (i : Int32) (value : Handle) : FaultKind → Prop where
  | null (hh : w.resolve h = none) : Refuses w h i value .nullPointer
  | noArray {o : ObjectRef} (hh : w.resolve h = some o) (ho : (w.object o).elements? = none) :
    Refuses w h i value .illegalArgument
  | noReferences {o : ObjectRef} {p : Primitive} {bytes : List UInt8} (hh : w.resolve h = some o)
    (ho : (w.object o).elements? = some (.primitive p bytes)) : Refuses w h i value .illegalArgument
  | index {o : ObjectRef} {items : List (Option ObjectRef)} (hh : w.resolve h = some o)
    (ho : (w.object o).elements? = some (.references items)) (hi : ¬ InRange i items.length) :
    Refuses w h i value .arrayIndexOutOfBounds
  | element {o v : ObjectRef} {items : List (Option ObjectRef)} {c : ClassId}
    (hh : w.resolve h = some o) (ho : (w.object o).elements? = some (.references items))
    (hi : InRange i items.length) (hc : w.elementClass? o = some c)
    (hvalue : w.resolve value = some v) (hv : w.isInstance v c = false) :
    Refuses w h i value .arrayStore

/-- There is no third. -/
theorem ArraysFit.accepts_or_refuses (fit : w.ArraysFit) (h : Handle) (i : Int32) (value : Handle) :
    (∃ o items c, w.Accepts h i value o items c) ∨ ∃ kind, w.Refuses h i value kind := by
  cases hh : w.resolve h with
  | none => exact .inr ⟨_, .null hh⟩
  | some o =>
    match ho : (w.object o).elements? with
    | none => exact .inr ⟨_, .noArray hh ho⟩
    | some (.primitive p bytes) => exact .inr ⟨_, .noReferences hh ho⟩
    | some (.references items) =>
      obtain ⟨c, hc, -⟩ := (fit.fits o).references items ho
      by_cases hi : InRange i items.length
      case neg => exact .inr ⟨_, .index hh ho hi⟩
      case pos =>
        by_cases hall : ∀ v, w.resolve value = some v → w.isInstance v c = true
        case pos => exact .inl ⟨o, items, c, hh, ho, hc, hi, hall⟩
        case neg =>
          obtain ⟨v, hv⟩ := not_forall.1 hall
          obtain ⟨hvalue, hv⟩ := Classical.not_imp.1 hv
          exact .inr ⟨_, .element hh ho hi hc hvalue (Bool.eq_false_iff.2 hv)⟩

end World

/-! ## The three functions -/

namespace Interface

variable {w : World H} {a : Attachment} {h value element initial : Handle} {i n : Int32}
  {o : ObjectRef} {c : ClassId} {items : List (Option ObjectRef)} {e : Elements}

/-- A reference is made, or there is no room for it. -/
theorem newLocal_cases (ha : w.attachment = some a) (x : Option ObjectRef) :
    (∃ g t, newLocal x w = .ok g (Native.withLocals w a t)) ∨
      ∃ e, newLocal x w = .error (.alloc e) w := by
  rw [newLocal, Native.onAttachment_eq ha]
  cases a.locals.create x with
  | ok made => exact .inl ⟨_, _, rfl⟩
  | error e => exact .inr ⟨e, rfl⟩

theorem arrayOf_ok (hh : w.resolve h = some o) (ho : (w.object o).elements? = some e) :
    arrayOf h w = .ok (o, e) w := by
  rw [arrayOf, Action.bind_ok (require_some hh), Action.bind_ok world_eq, ho]
  rfl

theorem arrayOf_null (hh : w.resolve h = none) :
    arrayOf h w = .error (.fault ⟨.nullPointer, "array is null"⟩) w :=
  Action.bind_error (require_none hh)

theorem arrayOf_none (hh : w.resolve h = some o) (ho : (w.object o).elements? = none) :
    ∃ message, arrayOf h w = .error (.fault ⟨.illegalArgument, message⟩) w := by
  rw [arrayOf, Action.bind_ok (require_some hh), Action.bind_ok world_eq, ho]
  exact ⟨_, rfl⟩

theorem elementIndex_in {total : Nat} (hi : World.InRange i total) :
    elementIndex i total w = .ok i.toInt.toNat w := by
  unfold elementIndex
  exact congrFun (if_pos hi) w

theorem elementIndex_out {total : Nat} (hi : ¬ World.InRange i total) :
    ∃ message, elementIndex i total w = .error (.fault ⟨.arrayIndexOutOfBounds, message⟩) w := by
  unfold elementIndex
  exact ⟨_, congrFun (if_neg hi) w⟩

/-! ### Reads -/

theorem getObjectArrayElement_in (hh : w.resolve h = some o)
    (ho : (w.object o).elements? = some (.references items))
    (hi : World.InRange i items.length) {x : Option ObjectRef}
    (hx : items[i.toInt.toNat]? = some x) : getObjectArrayElement h i w = newLocal x w := by
  rw [getObjectArrayElement, Action.bind_ok (arrayOf_ok hh ho)]
  refine (Action.bind_ok (elementIndex_in hi)).trans ?_
  simp only [Elements.get?, hx, Option.map_some]

/-- A read raises or makes a reference. -/
theorem getObjectArrayElement_cases (ha : w.attachment = some a) :
    (∃ e fault, getObjectArrayElement h i w = .error e w ∧ e.surface = .fault fault) ∨
      ∃ g t, getObjectArrayElement h i w = .ok g (Native.withLocals w a t) := by
  cases hh : w.resolve h with
  | none => exact .inl ⟨_, _, Action.bind_error (arrayOf_null hh), rfl⟩
  | some o =>
    cases ho : (w.object o).elements? with
    | none =>
      obtain ⟨message, hnone⟩ := arrayOf_none hh ho
      exact .inl ⟨_, _, Action.bind_error hnone, rfl⟩
    | some e =>
      rw [getObjectArrayElement, Action.bind_ok (arrayOf_ok hh ho)]
      dsimp only
      by_cases hi : World.InRange i e.size
      case neg =>
        obtain ⟨message, hout⟩ := elementIndex_out (w := w) hi
        exact .inl ⟨_, _, Action.bind_error hout, rfl⟩
      case pos =>
        rw [Action.bind_ok (elementIndex_in hi)]
        cases e.get? i.toInt.toNat with
        | none => exact .inl ⟨_, _, rfl, rfl⟩
        | some v =>
          cases v with
          | reference x =>
            rcases newLocal_cases ha x with hmade | ⟨e, hfull⟩
            · exact .inr hmade
            · exact .inl ⟨_, _, hfull, rfl⟩
          | _ => exact .inl ⟨_, _, rfl, rfl⟩

/-! ### Writes -/

theorem setObjectArrayElement_of_accepts (hs : w.Accepts h i value o items c) :
    setObjectArrayElement h i value w =
      .ok () (w.setElement o items i.toInt.toNat (w.resolve value)) := by
  have hall : ((w.resolve value).all fun v => w.isInstance v c) = true := by
    cases hvalue : w.resolve value with
    | none => rfl
    | some v => exact hs.instances v hvalue
  have hset : (Elements.references items).set? i.toInt.toNat (.reference (w.resolve value)) =
      some (.references (items.set i.toInt.toNat (w.resolve value))) := by
    have hlt : i.toInt.toNat < items.length := by
      obtain ⟨hpos, hlt⟩ := hs.index
      omega
    exact if_pos ⟨hlt, rfl⟩
  have hclass : (w.registry.get (w.classOf o)).element? = some c := hs.elementClass
  rw [setObjectArrayElement, Action.bind_ok object_eq,
    Action.bind_ok (arrayOf_ok hs.array hs.elements)]
  refine (Action.bind_ok world_eq).trans ?_
  simp only [hclass]
  refine (Action.bind_ok (elementIndex_in hs.index)).trans ?_
  simp only [hall, hset, if_true]
  rfl

/-- What is refused raises as it says. -/
theorem setObjectArrayElement_of_refuses (fit : w.ArraysFit) {kind : FaultKind}
    (hr : w.Refuses h i value kind) :
    ∃ message, setObjectArrayElement h i value w = .error (.fault ⟨kind, message⟩) w := by
  rw [setObjectArrayElement, Action.bind_ok object_eq]
  cases hr with
  | null hh => exact ⟨_, Action.bind_error (arrayOf_null hh)⟩
  | noArray hh ho =>
    obtain ⟨message, hnone⟩ := arrayOf_none hh ho
    exact ⟨message, Action.bind_error hnone⟩
  | @noReferences o p bytes hh ho =>
    have hclass : (w.registry.get (w.classOf o)).element? = none :=
      (fit.fits o).primitive p bytes ho
    rw [Action.bind_ok (arrayOf_ok hh ho)]
    refine ⟨w.dottedName o ++ " is not a reference array", (Action.bind_ok world_eq).trans ?_⟩
    simp only [hclass]
    rfl
  | @index o items hh ho hi =>
    obtain ⟨c, hc, -⟩ := (fit.fits o).references items ho
    have hclass : (w.registry.get (w.classOf o)).element? = some c := hc
    obtain ⟨message, hout⟩ := elementIndex_out (w := w) hi
    rw [Action.bind_ok (arrayOf_ok hh ho)]
    refine ⟨message, (Action.bind_ok world_eq).trans ?_⟩
    simp only [hclass]
    exact Action.bind_error hout
  | @element o v items c hh ho hi hc hvalue hv =>
    have hclass : (w.registry.get (w.classOf o)).element? = some c := hc
    rw [Action.bind_ok (arrayOf_ok hh ho)]
    refine ⟨w.dottedName v ++ " cannot be stored in " ++ w.dottedName o,
      (Action.bind_ok world_eq).trans ?_⟩
    simp only [hclass]
    refine (Action.bind_ok (elementIndex_in hi)).trans ?_
    simp only [hvalue, Option.all_some, hv]
    rfl

/-! ### New arrays -/

/-- Every element of a new array is null or an instance of the class that was asked for. -/
theorem newObjectArray_cases (c : ClassId) (n : Int32) (x : Option ObjectRef) :
    (∃ fault, Guest.newObjectArray c n x w =
        .error (w.materialize fault).1 (w.materialize fault).2) ∨
      (∀ v, x = some v → w.isInstance v c = true) ∧
        Guest.newObjectArray c n x w =
          .ok ⟨w.heap.size⟩ (w.withArray c (List.replicate n.toInt.toNat x)) := by
  unfold Guest.newObjectArray
  split
  case isTrue => exact .inl ⟨_, rfl⟩
  case isFalse =>
    cases x with
    | none => exact .inr ⟨nofun, rfl⟩
    | some v =>
      by_cases hv : w.isInstance v c = true
      case pos =>
        refine .inr ⟨fun v' hv' => by cases hv'; exact hv, ?_⟩
        refine (Action.bind_ok rfl).trans ?_
        simp only [hv, if_true]
        rfl
      case neg =>
        refine .inl ⟨⟨.arrayStore, w.dottedName v⟩, ?_⟩
        refine (Action.bind_ok rfl).trans ?_
        simp only [hv]
        rfl

/-- The array is made, and then a reference to it. -/
theorem newObjectArray_eq {w₁ : World H} (hc : w.namedClass? element = some c)
    (hmake : Guest.newObjectArray c n (w.resolve initial) w = .ok o w₁) :
    (newObjectArray n element initial : Entry H Handle) w = newLocal (some o) w₁ := by
  rw [newObjectArray, Action.bind_ok (classOf_some hc)]
  exact (Action.bind_ok object_eq).trans (Action.bind_ok (guest_ok hmake))

end Interface

namespace ObjectArrays

/-! ## Calls -/

/-- A call of one of the functions. -/
inductive Op where
  | new (n : Int32) (element initial : Handle)
  | get (h : Handle) (i : Int32)
  | set (h : Handle) (i : Int32) (value : Handle)

namespace Op

def function : Op → Function
  | new .. => .newObjectArray
  | get .. => .getObjectArrayElement
  | set .. => .setObjectArrayElement

def args : Op → List Argument
  | new n element initial => [.primitive (.int n), .handle element, .handle initial]
  | get h i => [.handle h, .primitive (.int i)]
  | set h i value => [.handle h, .primitive (.int i), .handle value]

/-- The running thread makes the call. -/
def run (call : Invoker H) (op : Op) : Action H Empty Answer := ask call op.function op.args

end Op

variable {w w' : World H} {op : Op} {answer : Answer} {h value : Handle} {i : Int32}
  {o : ObjectRef} {c : ClassId} {items : List (Option ObjectRef)}

/-- An array was made that is full of one reference, which is null or one to an instance of the
class that was asked for. -/
inductive Made (w : World H) (n : Int32) (element initial : Handle) : World H → Prop where
  | intro {c : ClassId} (hc : w.namedClass? element = some c)
    (hx : ∀ v, w.resolve initial = some v → w.isInstance v c = true) :
    Made w n element initial (w.withArray c (List.replicate n.toInt.toNat (w.resolve initial)))

/-- What a call does to a state. -/
inductive Does (w : World H) : Op → Answer → World H → Prop where
  /-- It raises, and changes nothing else. -/
  | raised (op : Op) (fault : GuestFault) : Does w op (.plain op.function.failure) (w.raised fault)
  /-- It makes an array and a reference to it. -/
  | made {n : Int32} {element initial g : Handle} {w₁ : World H} {a : Attachment}
    {t : Locals ObjectRef} (hm : Made w n element initial w₁) :
    Does w (.new n element initial) (.plain (.handle g)) (Native.withLocals w₁ a t)
  /-- It makes an array, and there is no room for a reference to it. -/
  | lost {n : Int32} {element initial : Handle} {w₁ : World H}
    (hm : Made w n element initial w₁) (fault : GuestFault) :
    Does w (.new n element initial) (.plain (.handle .null)) (w₁.raised fault)
  /-- It makes a reference to an element. -/
  | got {h : Handle} {i : Int32} {g : Handle} {a : Attachment} {t : Locals ObjectRef} :
    Does w (.get h i) (.plain (.handle g)) (Native.withLocals w a t)
  /-- It writes an element. -/
  | stored {h : Handle} {i : Int32} {value : Handle} {o : ObjectRef}
    {items : List (Option ObjectRef)} {c : ClassId} (hs : w.Accepts h i value o items c) :
    Does w (.set h i value) (.plain .nothing)
      (w.setElement o items i.toInt.toNat (w.resolve value))

theorem run_of_fault (call : Invoker H) (op : Op) (attached : w.attachment.isSome = true)
    {e : EntryError} {fault : GuestFault} (he : e.surface = .fault fault)
    (hbody : perform call op.function op.args w = .error e w') :
    op.run call w = .ok (.plain op.function.failure) (w'.raised fault) :=
  callFunction_fails attached he hbody

theorem run_set_of_accepts (call : Invoker H) (attached : w.attachment.isSome = true)
    (hs : w.Accepts h i value o items c) :
    (Op.set h i value).run call w =
      .ok (.plain .nothing) (w.setElement o items i.toInt.toNat (w.resolve value)) :=
  callFunction_done attached (Action.bind_ok (setObjectArrayElement_of_accepts hs))

theorem run_set_of_refuses (call : Invoker H) (attached : w.attachment.isSome = true)
    (fit : w.ArraysFit) {kind : FaultKind} (hr : w.Refuses h i value kind) :
    ∃ message, (Op.set h i value).run call w =
      .ok (.plain .nothing) (w.raised ⟨kind, message⟩) := by
  obtain ⟨message, hset⟩ := setObjectArrayElement_of_refuses fit hr
  exact ⟨message, run_of_fault call (.set h i value) attached rfl (Action.bind_error hset)⟩

/-- Every call comes to an answer, and does no more than what is listed. -/
theorem run_does (call : Invoker H) (attached : w.attachment.isSome = true) (fit : w.ArraysFit)
    (op : Op) : ∃ answer w', op.run call w = .ok answer w' ∧ Does w op answer w' := by
  obtain ⟨a, ha⟩ := Option.isSome_iff_exists.1 attached
  cases op with
  | new n element initial =>
    cases hc : w.namedClass? element with
    | none =>
      obtain ⟨fault, hclass⟩ := classOf_none hc
      exact ⟨_, _, run_of_fault call _ attached rfl (Action.bind_error (Action.bind_error hclass)),
        .raised _ fault⟩
    | some c =>
      rcases newObjectArray_cases c n (w.resolve initial) with ⟨fault, hthrow⟩ | ⟨hx, hmake⟩
      · have hbody : (newObjectArray n element initial : Entry H Handle) w = _ :=
          (Action.bind_ok (classOf_some hc)).trans
            ((Action.bind_ok object_eq).trans (Action.bind_error (guest_error hthrow)))
        exact ⟨_, _, callFunction_throws attached (Action.bind_error hbody), .raised _ fault⟩
      · have hbody := newObjectArray_eq hc hmake
        let made := w.withArray c (List.replicate n.toInt.toNat (w.resolve initial))
        have hmade : made.attachment = some a := ha
        rcases newLocal_cases hmade (some ⟨w.heap.size⟩) with ⟨g, t, hlocal⟩ | ⟨e, hfull⟩
        · exact ⟨_, _, callFunction_done attached (Action.bind_ok (hbody.trans hlocal)),
            .made (.intro hc hx)⟩
        · exact ⟨_, _, run_of_fault call _ attached rfl (Action.bind_error (hbody.trans hfull)),
            .lost (.intro hc hx) _⟩
  | get h i =>
    rcases getObjectArrayElement_cases (h := h) (i := i) ha with
      ⟨e, fault, hfail, he⟩ | ⟨g, t, hget⟩
    · exact ⟨_, _, run_of_fault call _ attached he (Action.bind_error hfail), .raised _ fault⟩
    · exact ⟨_, _, callFunction_done attached (Action.bind_ok hget), .got⟩
  | set h i value =>
    rcases fit.accepts_or_refuses h i value with ⟨o, items, c, hs⟩ | ⟨kind, hr⟩
    · exact ⟨_, _, run_set_of_accepts call attached hs, .stored hs⟩
    · obtain ⟨message, hraise⟩ := run_set_of_refuses call attached fit hr
      exact ⟨_, _, hraise, .raised (.set h i value) _⟩

/-! ## What calls keep -/

theorem arraysFit_withLocals (fit : w.ArraysFit) (a : Attachment) (t : Locals ObjectRef) :
    (Native.withLocals w a t).ArraysFit := fit.aside (fit.aside_of_eq rfl rfl)

/-- The class that a handle stands for is there, and the new array is full of its instances. -/
theorem Made.arraysFit {n : Int32} {element initial : Handle} (m : Made w n element initial w')
    (fit : w.ArraysFit) : w'.ArraysFit := by
  obtain ⟨hc, hx⟩ := m
  obtain ⟨o, -, hmirror⟩ := Option.bind_eq_some_iff.1 hc
  exact fit.withArray (fit.mirrors o _ hmirror) fun v hv => hx v (List.eq_of_mem_replicate hv).symm

theorem Made.extends {n : Int32} {element initial : Handle} (m : Made w n element initial w') :
    w.heap.Extends w'.heap := by
  cases m
  exact .push _ _

/-- A call leaves arrays that hold what their classes say. -/
theorem Does.arraysFit (d : Does w op answer w') (fit : w.ArraysFit) : w'.ArraysFit := by
  cases d with
  | raised op fault => exact fit.aside (fit.aside_raised fault)
  | made hm => exact arraysFit_withLocals (hm.arraysFit fit) _ _
  | lost hm fault =>
    have fit' := hm.arraysFit fit
    exact fit'.aside (fit'.aside_raised fault)
  | got => exact arraysFit_withLocals fit _ _
  | stored hs => exact fit.setElement hs.elements hs.elementClass hs.instances

/-- Only stores change anything that is in an array. -/
theorem Does.extends (d : Does w op answer w') (hop : ∀ h i value, op ≠ .set h i value) :
    w.heap.Extends w'.heap := by
  cases d with
  | raised op fault => exact (World.untouched_raised w fault).heap
  | made hm => exact hm.extends
  | @lost _ _ _ w₁ hm fault => exact hm.extends.trans (World.untouched_raised w₁ fault).heap
  | got => exact .refl _
  | stored => exact absurd rfl (hop _ _ _)

/-! ## Runs -/

/-- States that are reached from the start of a run by calls in any order.  In between, classes are
defined that are not named like array classes, and anything may happen that leaves arrays alone:
threads attach, objects and references come and go. -/
inductive Reached (call : Invoker H) : World H → Prop where
  | start (maxCallDepth : Nat) (memory : HostMemory) (host : H) :
    Reached call (World.start maxCallDepth memory host)
  | define {w : World H} {spec : ClassSpec} (before : Reached call w)
    (sort : ∀ e, spec.sort ≠ .array e) (name : spec.name.toList.head? ≠ some '[') :
    Reached call (w.defineOrKeep spec)
  | call {w w' : World H} {op : Op} {answer : Answer} (before : Reached call w)
    (attached : w.attachment.isSome = true) (run : op.run call w = .ok answer w') : Reached call w'
  | aside {w w' : World H} (before : Reached call w) (aside : w.Aside w') : Reached call w'

theorem Reached.arraysFit {call : Invoker H} (hr : Reached call w) : w.ArraysFit := by
  induction hr with
  | start maxCallDepth memory host => exact World.arraysFit_start maxCallDepth memory host
  | define _ sort name fit => exact fit.aside (fit.aside_defineOrKeep sort name)
  | @call w w' op answer _ attached run fit =>
    obtain ⟨answer', w₁, hrun, d⟩ := run_does call attached fit op
    cases run.symm.trans hrun
    exact d.arraysFit fit
  | aside _ aside fit => exact fit.aside aside

/-- What holds of arrays, and what the next call does to them. -/
structure StoresTyped (call : Invoker H) (w : World H) : Prop where
  /-- Every element of an array of references is null or an instance of the class that this array
  has its elements of. -/
  typed : ∀ o items, (w.object o).elements? = some (.references items) →
    ∃ c, w.elementClass? o = some c ∧ ∀ v, some v ∈ items → w.isInstance v c = true
  /-- Every call comes to an answer. -/
  answers : ∀ op : Op, ∃ answer w', op.run call w = .ok answer w'
  /-- Calls that are not stores leave every array as it was. -/
  others : ∀ (op : Op) answer w', (∀ h i value, op ≠ .set h i value) →
    op.run call w = .ok answer w' → w.heap.Extends w'.heap
  /-- A store is in order or refused. -/
  decided : ∀ h i value, (∃ o items c, w.Accepts h i value o items c) ∨
    ∃ kind, w.Refuses h i value kind
  /-- A store that is refused raises, and all arrays are as they were. -/
  refused : ∀ h i value kind, w.Refuses h i value kind → ∃ t w',
    (Op.set h i value).run call w = .ok (.plain .nothing) w' ∧ w'.pending = some t ∧
      w.heap.size ≤ t.index ∧ w'.className t = kind.className ∧
      ∀ o, (w'.object o).elements? = (w.object o).elements?
  /-- A store that is in order puts the value in its place, changes nothing else and raises nothing.
  The value is read back through any handle of the array, such as the one that was passed, unless
  that is a weak one and the array is gone. -/
  stored : ∀ h i value o items c, w.Accepts h i value o items c → ∃ w',
    (Op.set h i value).run call w = .ok (.plain .nothing) w' ∧ w'.pending = w.pending ∧
      (w'.object o).elements? =
        some (.references (items.set i.toInt.toNat (w.resolve value))) ∧
      (∀ o', o' ≠ o → w'.object o' = w.object o') ∧
      ((h.tag = .weakGlobal → (w'.resolve h).isSome = true) → w'.resolve h = some o) ∧
      ∀ g, w'.resolve g = some o → w.resolve value = none ∨ w.HasVacancy →
        ∃ answer w'', (Op.get g i).run call w' = .ok answer w'' ∧
          w''.StandsFor (.reference (w.resolve value)) answer

/-- A read after a store makes a reference to what was stored. -/
theorem run_get_after_set (call : Invoker H) (attached : w.attachment.isSome = true)
    (hs : w.Accepts h i value o items c) {g : Handle}
    (hg : (w.setElement o items i.toInt.toNat (w.resolve value)).resolve g = some o)
    (hroom : w.resolve value = none ∨ w.HasVacancy) :
    ∃ answer w', (Op.get g i).run call (w.setElement o items i.toInt.toNat (w.resolve value)) =
      .ok answer w' ∧ w'.StandsFor (.reference (w.resolve value)) answer := by
  let w₁ := w.setElement o items i.toInt.toNat (w.resolve value)
  obtain ⟨hpos, hlt⟩ := hs.index
  have hnat : i.toInt.toNat < items.length := by omega
  have helements : (w₁.object o).elements? =
      some (.references (items.set i.toInt.toNat (w.resolve value))) :=
    congrArg Object.elements? (World.object_setElement_self hs.elements _ _)
  have hindex : World.InRange i (items.set i.toInt.toNat (w.resolve value)).length := by
    rw [List.length_set]
    exact hs.index
  have hget := getObjectArrayElement_in hg helements hindex (List.getElem?_set_self hnat)
  have hrun : ∀ {g' : Handle} {w' : World H}, newLocal (w.resolve value) w₁ = .ok g' w' →
      (Op.get g i).run call w₁ = .ok (.plain (.handle g')) w' := fun hlocal =>
    callFunction_done attached (Action.bind_ok (hget.trans hlocal))
  rcases Option.eq_none_or_eq_some (w.resolve value) with hvalue | ⟨v, hvalue⟩
  · obtain ⟨a, ha⟩ := Option.isSome_iff_exists.1 attached
    have ha₁ : w₁.attachment = some a := ha
    have hlocal : newLocal (w.resolve value) w₁ = .ok .null (w₁.setAttachment (some a)) := by
      rw [hvalue]
      exact Native.onAttachment_eq ha₁ _
    refine ⟨_, _, hrun hlocal, ?_⟩
    rw [hvalue]
    exact .null
  · obtain ⟨a, ha, wf, hvacancy⟩ := hroom.resolve_left (by rw [hvalue]; nofun)
    have ha₁ : w₁.attachment = some a := ha
    obtain ⟨g', w', hlocal, htag, hv⟩ := newLocal_of_vacancy ha₁ wf hvacancy v
    rw [← hvalue] at hlocal
    refine ⟨_, w', hrun hlocal, ?_⟩
    rw [hvalue]
    exact .object htag hv

/-- Whatever calls were made, arrays hold what their classes say, and stores do what they should. -/
theorem stores_are_typed (call : Invoker H) (hr : Reached call w)
    (attached : w.attachment.isSome = true) : StoresTyped call w := by
  have fit := hr.arraysFit
  constructor
  case typed => exact fun o items ho => (fit.fits o).references items ho
  case answers =>
    intro op
    obtain ⟨answer, w', hrun, -⟩ := run_does call attached fit op
    exact ⟨answer, w', hrun⟩
  case others =>
    intro op answer w' hop hrun
    obtain ⟨answer', w₁, hrun', d⟩ := run_does call attached fit op
    cases hrun.symm.trans hrun'
    exact d.extends hop
  case decided => exact fit.accepts_or_refuses
  case refused =>
    intro h i value kind hr
    obtain ⟨message, hrun⟩ := run_set_of_refuses call attached fit hr
    obtain ⟨c, hfind, -⟩ := fit.reachable.messageSlot kind
    exact ⟨⟨w.heap.size⟩, _, hrun, World.pending_raised attached _, Nat.le_refl _,
      World.className_materialize (f := ⟨kind, message⟩) hfind, (fit.aside_raised _).elements⟩
  case stored =>
    intro h i value o items c hs
    exact ⟨_, run_set_of_accepts call attached hs, rfl,
      congrArg Object.elements? (World.object_setElement_self hs.elements _ _),
      fun o' hne => World.object_setElement_of_ne hne _ _,
      World.resolve_of_resolve (w := w) rfl rfl hs.array,
      fun g => run_get_after_set call attached hs⟩

/-- A class and one that inherits from it. -/
def shapeSpec : ClassSpec := ⟨"Shape", .concrete, some "java/lang/Object", [], [], []⟩

def circleSpec : ClassSpec := ⟨"Circle", .concrete, some "Shape", [], [], []⟩

/-- A run in which both are defined. -/
def drawn : World Unit :=
  ((World.start World.defaultCallDepth .growing ()).defineOrKeep shapeSpec).defineOrKeep circleSpec

/-- A shape, a circle and the object for the class of circles, where there is a class of arrays of
shapes. -/
def canvas : World Unit :=
  let w := ((drawn.newInstance ⟨28⟩).2.newInstance ⟨29⟩).2
  let w := (w.newObject CoreClass.classObject.id (.mirror ⟨29⟩)).2
  w.withRegistry (w.registry.arrayClass (.reference ⟨28⟩)).2

/-- References to the three objects. -/
def easelLocals : Locals ObjectRef :=
  (Locals.empty 4096).after [.create (some ⟨0⟩), .create (some ⟨1⟩), .create (some ⟨2⟩)]

/-- An attached thread with the references. -/
def easel : World Unit := canvas.setAttachment (some ⟨0, easelLocals, .empty⟩)

/-- References to these objects and to an array of circles. -/
def painterLocals : Locals ObjectRef := easelLocals.after [.create (some ⟨3⟩)]

def shape : Handle := painterLocals.handleAt 0

def circle : Handle := painterLocals.handleAt 1

def circleClass : Handle := painterLocals.handleAt 2

def circles : Handle := painterLocals.handleAt 3

/-- The thread when it has made an array of two circles. -/
def painter : World Unit :=
  (easel.withArray ⟨29⟩ [none, none]).setAttachment (some ⟨0, painterLocals, .empty⟩)

theorem easel_holds : drawn.registry.size = 30 ∧ easel.heap.size = 3 ∧
    easel.namedClass? circleClass = some ⟨29⟩ := by
  decide +kernel

/-- All of it leaves arrays alone. -/
theorem reached_easel (call : Invoker Unit) : Reached call easel := by
  obtain ⟨hsize, -⟩ := easel_holds
  have hknown : ∀ i < 30, (⟨i⟩ : ClassId).index < drawn.registry.size := fun i hi => hsize ▸ hi
  have hdrawn : Reached call drawn :=
    ((Reached.start _ .growing ()).define (by simp [shapeSpec]) (by decide)).define
      (by simp [circleSpec]) (by decide)
  have hshape := hdrawn.aside (hdrawn.arraysFit.aside_newInstance (hknown 28 (by decide)))
  have hcircle := hshape.aside (hshape.arraysFit.aside_newInstance (hknown 29 (by decide)))
  have hmirror : ∀ d, ObjectBody.mirror ⟨29⟩ = .mirror d → d.index < drawn.registry.size := by
    rintro d ⟨⟩
    exact hknown 29 (by decide)
  have hclass := hcircle.aside (hcircle.arraysFit.aside_newObject
    (hknown CoreClass.classObject.id.index (by decide)) (by simp) hmirror)
  have harrays := hclass.aside (hclass.arraysFit.aside_arrayClass (hknown 28 (by decide)))
  exact harrays.aside (harrays.arraysFit.aside_of_eq rfl rfl)

theorem run_easel (call : Invoker Unit) :
    (Op.new 2 circleClass .null).run call easel = .ok (.plain (.handle circles)) painter := by
  obtain ⟨-, hheap, hc⟩ := easel_holds
  have hlocal : newLocal (some ⟨easel.heap.size⟩) (easel.withArray ⟨29⟩ [none, none]) =
      .ok circles painter := by
    rw [hheap]
    rfl
  exact callFunction_done rfl (Action.bind_ok ((newObjectArray_eq hc rfl).trans hlocal))

theorem painter_classes :
    painter.elementClass? ⟨3⟩ = some ⟨29⟩ ∧ painter.isInstance ⟨1⟩ ⟨29⟩ = true ∧
      painter.isInstance ⟨0⟩ ⟨29⟩ = false ∧
      (painter.object ⟨3⟩).elements? = some (.references [none, none]) ∧
      painter.registry.nameOf ⟨30⟩ = "[LShape;" ∧ painter.isInstance ⟨3⟩ ⟨30⟩ = true := by
  decide +kernel

/-- An array of circles is also one of shapes, and still it does not take a shape.  It takes a
circle, which is read back. -/
theorem stores_are_typed_for_painter :
    let call : Invoker Unit := fun _ _ _ => Action.halt .outOfFuel
    (Op.new 2 circleClass .null).run call easel = .ok (.plain (.handle circles)) painter ∧
    painter.registry.nameOf ⟨30⟩ = "[LShape;" ∧ painter.isInstance ⟨3⟩ ⟨30⟩ = true ∧
    (∃ t w, (Op.set circles 0 shape).run call painter = .ok (.plain .nothing) w ∧
      w.pending = some t ∧ w.className t = "java/lang/ArrayStoreException" ∧
      (w.object ⟨3⟩).elements? = some (.references [none, none])) ∧
    ∃ w answer w', (Op.set circles 1 circle).run call painter = .ok (.plain .nothing) w ∧
      (w.object ⟨3⟩).elements? = some (.references [none, some ⟨1⟩]) ∧
      (Op.get circles 1).run call w = .ok answer w' ∧
      w'.StandsFor (.reference (some ⟨1⟩)) answer ∧ StoresTyped call w := by
  intro call
  obtain ⟨hclass, hcircle, hshape, helements, hname, hcovariant⟩ := painter_classes
  have hh : painter.resolve circles = some ⟨3⟩ := rfl
  have hreached : Reached call painter := (reached_easel call).call rfl (run_easel call)
  have htyped := stores_are_typed call hreached rfl
  have hvalue : painter.resolve shape = some ⟨0⟩ := rfl
  obtain ⟨t, w, hrun, hpending, -, hthrown, hkept⟩ :=
    htyped.refused circles 0 shape _ (.element hh helements (by decide) hclass hvalue hshape)
  have haccepts : painter.Accepts circles 1 circle ⟨3⟩ [none, none] ⟨29⟩ :=
    ⟨hh, helements, hclass, by decide, fun v hv => by cases hv; exact hcircle⟩
  have hvacancy : painter.HasVacancy :=
    ⟨_, rfl, ((Locals.wellFormed_empty 4096).after _).after _, rfl⟩
  obtain ⟨w₁, hset, -, hstored, -, hagain, hread⟩ := htyped.stored _ _ _ _ _ _ haccepts
  obtain ⟨answer, w₂, hget, hstands⟩ := hread circles (hagain nofun) (.inr hvacancy)
  have hattached : w₁.attachment.isSome = true := by
    cases hset.symm.trans (run_set_of_accepts call rfl haccepts)
    rfl
  exact ⟨run_easel call, hname, hcovariant,
    ⟨t, w, hrun, hpending, hthrown, (hkept _).trans helements⟩,
    w₁, answer, w₂, hset, hstored, hget, hstands,
    stores_are_typed call (hreached.call rfl hset) hattached⟩

end ObjectArrays

end GuestBoundary
