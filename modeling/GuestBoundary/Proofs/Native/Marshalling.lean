import GuestBoundary.Proofs.Interface.Outcomes
import GuestBoundary.Proofs.Native.Calls

/-!
# Arguments of native calls

A native function gets one word for each parameter of its method.  A primitive is the word of the
value that its argument is converted to, null is the null handle, and an object is a new local
reference in the frame of the call.  `prepare_cases` says how the words are made: references take
the slots behind all others one after the other, which is what the frame has room for
(`Locals.Extensible`).  So nothing but a refused conversion keeps a function from being called once
its frame is open.
-/

namespace GuestBoundary

/-! ## Conversions -/

namespace ConversionMode

variable {mode : ConversionMode} {v u : Value} {nulls : NullPolicy}

theorem kind_of_toPrimitive {p : Primitive} (h : mode.toPrimitive v p nulls = .ok u) :
    u.kind = p := by
  unfold toPrimitive at h
  by_cases hk : v.kind = p
  · rw [if_pos hk] at h
    cases h
    exact hk
  · rw [if_neg hk] at h
    cases v with
    | reference o =>
      cases o <;> cases nulls <;> cases h
      exact Value.kind_zero p
    | void =>
      cases nulls <;> cases h
      exact Value.kind_zero p
    | _ =>
      cases mode <;> cases h
      exact Value.kind_ofBits p _

/-- What a value is converted to has the kind that is wanted. -/
theorem kind_of_convert {k : Kind} (h : mode.convert v k nulls = .ok u) : u.kind = k := by
  cases k with
  | void =>
    cases h
    rfl
  | object =>
    change (mode.toReference v).map Value.reference = .ok u at h
    cases hr : mode.toReference v <;> rw [hr] at h <;> cases h
    rfl
  | primitive p => exact kind_of_toPrimitive h

end ConversionMode

namespace Slot

/-- The word in which a value is passed, where an object that is not null is passed as `h`. -/
def ofValue (h : Handle) : Value → Slot
  | .reference (some _) => h.raw
  | v => v.toBits.getD 0

variable {resolve : Handle → Option ObjectRef}

theorem ofValue_of_toBits {h : Handle} {u : Value} {bits : UInt64} (hu : u.toBits = some bits) :
    ofValue h u = bits := by
  cases u with
  | reference o => cases hu
  | _ => exact congrArg (Option.getD · 0) hu

theorem read_toBits {u : Value} {bits : UInt64} (hu : u.toBits = some bits) :
    read resolve u.kind bits = u := by
  cases hk : u.kind with
  | primitive p => exact Value.ofWord_toBits hk hu
  | object =>
    cases u <;> cases hk
    cases hu
  | void =>
    cases u <;> cases hk
    cases hu

theorem kind_read (k : Kind) (slot : Slot) : (read resolve k slot).kind = k := by
  cases k with
  | primitive p => exact Value.kind_ofWord p slot
  | object => rfl
  | void => rfl

end Slot

/-! ## References one after the other -/

namespace Locals

variable {α : Type} {t : Locals α}

/-- The table with more references, each in a new slot behind the others. -/
def extended (t : Locals α) : List α → Locals α
  | [] => t
  | o :: os => (t.fill t.slots.size [] o).extended os

theorem handleAt_fill_of_le {i : Nat} {free : List Nat} {o : α} (hi : i ≤ t.generations.size)
    (j : Nat) : (t.fill i free o).handleAt j = t.handleAt j := by
  unfold handleAt
  rw [getElem?_generations_fill hi]
  split
  next hj => rw [Option.getD_some, hj]
  next => rfl

/-- A table that gives out the slots behind all others, with room for `n` of them. -/
structure Extensible (t : Locals α) (n : Nat) : Prop where
  wellFormed : t.WellFormed
  free : t.free = []
  room : t.slots.size + n ≤ t.limit

theorem WellFormed.extensible_opened (wf : t.WellFormed) {n : Nat} (hroom : t.hasRoom n = true) :
    (t.opened n).Extensible n where
  wellFormed := wf.opened n
  free := rfl
  room := of_decide_eq_true hroom

namespace Extensible

variable {n : Nat}

theorem vacancy (e : t.Extensible (n + 1)) : t.vacancy? = some (t.slots.size, []) := by
  have := e.room
  rw [vacancy?, e.free]
  exact if_neg (by omega)

theorem size_fill (o : α) : (t.fill t.slots.size [] o).slots.size = t.slots.size + 1 := by
  rw [size_slots_fill (Nat.le_refl _)]
  omega

theorem fill (e : t.Extensible (n + 1)) (o : α) :
    (t.fill t.slots.size [] o).Extensible n where
  wellFormed := e.wellFormed.fill e.vacancy o
  free := rfl
  room := by
    have := e.room
    rw [size_fill, fill_limit]
    omega

theorem mono {m : Nat} (e : t.Extensible n) (h : m ≤ n) : t.Extensible m :=
  ⟨e.wellFormed, e.free, Nat.le_trans (Nat.add_le_add_left h _) e.room⟩

theorem create (e : t.Extensible (n + 1)) (o : α) :
    t.create (some o) = .ok (t.handleAt t.slots.size, t.fill t.slots.size [] o) := by
  rw [create_some, e.vacancy]
  dsimp only
  rw [handleAt_fill_of_le e.wellFormed.size_le_generations]

theorem handleAt_fill (e : t.Extensible n) (o : α) (i : Nat) :
    (t.fill t.slots.size [] o).handleAt i = t.handleAt i :=
  handleAt_fill_of_le e.wellFormed.size_le_generations i

theorem frames_extended (os : List α) : (t.extended os).frames = t.frames := by
  induction os generalizing t with
  | nil => rfl
  | cons o os ih => exact ih

/-- The new references come after the ones that were there, with the handles of their slots. -/
theorem resolve_extended {os : List α} (e : t.Extensible os.length) {h : Handle} {p : α} :
    (t.extended os).resolve h = some p ↔ t.resolve h = some p ∨
      ∃ j, os[j]? = some p ∧ h = t.handleAt (t.slots.size + j) := by
  induction os generalizing t with
  | nil => simp [extended]
  | cons o os ih =>
    rw [extended, ih (e.fill o), e.wellFormed.resolve_fill e.vacancy, size_fill]
    constructor
    · rintro ((⟨rfl, rfl⟩ | hr) | ⟨j, hj, rfl⟩)
      · exact .inr ⟨0, rfl, rfl⟩
      · exact .inl hr
      · refine .inr ⟨j + 1, hj, ?_⟩
        rw [e.handleAt_fill, Nat.add_assoc, Nat.add_comm 1]
    · rintro (hr | ⟨_ | j, hj, rfl⟩)
      · exact .inl (.inr hr)
      · exact .inl (.inl ⟨rfl, (Option.some.inj hj).symm⟩)
      · refine .inr ⟨j, hj, ?_⟩
        rw [e.handleAt_fill, Nat.add_assoc, Nat.add_comm 1]

theorem extended_append (os ps : List α) :
    t.extended (os ++ ps) = (t.extended os).extended ps := by
  induction os generalizing t with
  | nil => rfl
  | cons o os ih => exact ih

theorem size_extended (os : List α) : (t.extended os).slots.size = t.slots.size + os.length := by
  induction os generalizing t with
  | nil => rfl
  | cons o os ih =>
    rw [extended, ih, size_fill, List.length_cons]
    omega

theorem extended {os : List α} (e : t.Extensible (os.length + n)) :
    (t.extended os).Extensible n := by
  induction os generalizing t with
  | nil => exact e.mono (Nat.le_add_left _ _)
  | cons o os ih =>
    rw [List.length_cons, Nat.add_right_comm] at e
    exact ih (e.fill o)

theorem handleAt_extended {os : List α} (e : t.Extensible os.length) :
    (t.extended os).handleAt = t.handleAt := by
  induction os generalizing t with
  | nil => rfl
  | cons o os ih => rw [Locals.extended, ih (e.fill o), funext (e.handleAt_fill o)]

end Extensible

end Locals


/-! ## What the function is called with -/

namespace Native

variable {H : Type}

/-- The state with another table of the running thread. -/
def withLocals (w : World H) (a : Attachment) (t : Locals ObjectRef) : World H :=
  w.setAttachment (some { a with locals := t })

/-- The words in which values are passed, the objects with the handles from number `n` on. -/
def words (handle : Nat → Handle) : Nat → List Value → List Slot
  | _, [] => []
  | n, u :: us => Slot.ofValue (handle n) u :: words handle (n + u.object?.toList.length) us

/-- The objects among values. -/
def objectsOf (us : List Value) : List ObjectRef := us.filterMap Value.object?

theorem objectsOf_cons (u : Value) (us : List Value) :
    objectsOf (u :: us) = u.object?.toList ++ objectsOf us := by
  rw [objectsOf, List.filterMap_cons]
  cases u.object? <;> rfl

section Arguments

variable {w : World H} {a : Attachment} {b : Bridge} {t : Locals ObjectRef} {n : Nat}

theorem newLocal_extensible (e : t.Extensible (n + 1)) (o : ObjectRef) :
    Entry.newLocal (some o) (withLocals w a t) =
      .ok (t.handleAt t.slots.size) (withLocals w a (t.extended [o])) := by
  have hattachment : (withLocals w a t).attachment = some { a with locals := t } := rfl
  rw [Entry.newLocal, onAttachment_eq hattachment]
  simp only [e.create]
  rfl

theorem argument_ok (hb : w.bridge = some b) (e : t.Extensible (n + 1)) {k : Kind} {v u : Value}
    (hconvert : b.config.conversion.convert v k .zero = .ok u) :
    argument k v (withLocals w a t) =
      .ok (Slot.ofValue (t.handleAt t.slots.size) u)
        (withLocals w a (t.extended u.object?.toList)) := by
  have hbridge : (withLocals w a t).bridge = some b := hb
  rw [argument, Action.bind_ok (Entry.bridge_eq hbridge), hconvert,
    Action.bind_ok (show Entry.ofConversion (.ok u) _ = .ok u _ from rfl)]
  cases u with
  | reference o =>
    cases o with
    | none => rfl
    | some o => exact Action.bind_ok (newLocal_extensible e o)
  | _ => rfl

theorem argument_error (hb : w.bridge = some b) {k : Kind} {v : Value} {e : ConversionError}
    (hconvert : b.config.conversion.convert v k .zero = .error e) :
    argument k v (withLocals w a t) = .error (.conversion e) (withLocals w a t) := by
  have hbridge : (withLocals w a t).bridge = some b := hb
  rw [argument, Action.bind_ok (Entry.bridge_eq hbridge), hconvert]
  rfl

/-- What a parameter of a kind takes from an argument. -/
def Converts (mode : ConversionMode) (p : Kind × Value) (u : Value) : Prop :=
  mode.convert p.2 p.1 .zero = .ok u

/-- The arguments arrive in order, or the first one that is refused ends it. -/
theorem arguments_cases (hb : w.bridge = some b) (ks : List Kind) (vs : List Value)
    (e : t.Extensible vs.length) :
    (∃ us, List.Forall₂ (Converts b.config.conversion) (ks.zip vs) us ∧
      arguments ks vs (withLocals w a t) =
        .ok (words t.handleAt t.slots.size us) (withLocals w a (t.extended (objectsOf us)))) ∨
    ∃ err os, (∃ p ∈ ks.zip vs, b.config.conversion.convert p.2 p.1 .zero = .error err) ∧
      arguments ks vs (withLocals w a t) =
        .error (.conversion err) (withLocals w a (t.extended os)) := by
  induction ks generalizing t vs with
  | nil => exact .inl ⟨[], .nil, rfl⟩
  | cons k ks ih =>
    cases vs with
    | nil => exact .inl ⟨[], .nil, rfl⟩
    | cons v vs =>
      cases hc : b.config.conversion.convert v k .zero with
      | error err =>
        refine .inr ⟨err, [], ⟨(k, v), List.mem_cons_self, hc⟩, ?_⟩
        exact Action.bind_error (argument_error hb hc)
      | ok u =>
        have hfirst := argument_ok (a := a) hb e hc
        have hone : u.object?.toList.length ≤ 1 := by cases u.object? <;> simp
        have he : t.Extensible (u.object?.toList.length + vs.length) :=
          e.mono (by rw [List.length_cons]; omega)
        have hhandles := Locals.Extensible.handleAt_extended (he.mono (Nat.le_add_right _ _))
        rcases ih vs he.extended with ⟨us, hus, hok⟩ | ⟨err, os, ⟨p, hp, hrefused⟩, herr⟩
        · refine .inl ⟨u :: us, .cons hc hus, ?_⟩
          rw [arguments, Action.bind_ok hfirst, Action.bind_ok hok, words, objectsOf_cons,
            Locals.Extensible.extended_append, Locals.Extensible.size_extended, hhandles]
          rfl
        · refine .inr ⟨err, u.object?.toList ++ os, ⟨p, List.mem_cons_of_mem _ hp, hrefused⟩, ?_⟩
          rw [arguments, Action.bind_ok hfirst, Action.bind_error herr,
            Locals.Extensible.extended_append]

end Arguments

section Prepare

variable {w : World H} {a : Attachment} {b : Bridge} (env : Env) (binding : Binding)
  (receiver : ObjectRef) {args : List Value}

theorem extensible_opened (ha : a.locals.WellFormed)
    (hroom : a.locals.hasRoom (frameCapacity args) = true) :
    (a.locals.opened (frameCapacity args)).Extensible (args.length + 1) :=
  (ha.extensible_opened hroom).mono (Nat.le_max_right _ _)

/-- With room for the frame, only a conversion can keep the function from being called. -/
theorem prepare_cases (ha : w.attachment = some a) (wf : a.locals.WellFormed)
    (hb : w.bridge = some b) (hroom : a.locals.hasRoom (frameCapacity args) = true) :
    (∃ us, List.Forall₂ (Converts b.config.conversion) (binding.signature.params.zip args) us ∧
      prepare env binding receiver args w =
        .ok ⟨binding.address, env, a.locals.handleAt a.locals.slots.size,
            words a.locals.handleAt (a.locals.slots.size + 1) us⟩
          (withLocals w a
            ((a.locals.opened (frameCapacity args)).extended (receiver :: objectsOf us)))) ∨
    ∃ err os, (∃ p ∈ binding.signature.params.zip args,
        b.config.conversion.convert p.2 p.1 .zero = .error err) ∧
      prepare env binding receiver args w =
        .error (.conversion err)
          (withLocals w a ((a.locals.opened (frameCapacity args)).extended os)) := by
  have e := extensible_opened wf hroom
  have hpush : Entry.pushFrame (frameCapacity args) w =
      .ok () (withLocals w a (a.locals.opened (frameCapacity args))) := by
    rw [pushFrame_eq ha, if_pos hroom]
    rfl
  have hlocal := newLocal_extensible (w := w) (a := a) e receiver
  rw [prepare, Action.bind_ok hpush, marshal, Action.bind_ok hlocal]
  rcases arguments_cases (w := w) (a := a) hb binding.signature.params args (e.fill receiver) with
    ⟨us, hus, hok⟩ | ⟨err, os, hrefused, herr⟩
  · refine .inl ⟨us, hus, (Action.bind_ok hok).trans ?_⟩
    rw [Locals.Extensible.size_fill, funext (e.handleAt_fill receiver)]
    rfl
  · exact .inr ⟨err, receiver :: os, hrefused, Action.bind_error herr⟩

end Prepare

/-! ## How arguments arrive -/

/-- A reference of a call's own frame that did not exist before, where `caller` is the table from
which the call was made. -/
structure FreshLocal (caller : Locals ObjectRef) (w : World H) (h : Handle) (o : ObjectRef) :
    Prop where
  resolves : w.resolve h = some o
  kind : w.refKind h = .local
  /-- It belongs to the innermost frame, which is the one above the caller's. -/
  owned : ∃ a, w.attachment = some a ∧ a.locals.depth = caller.depth + 1 ∧
    a.locals.ownerOf h.index = a.locals.depth
  dead : caller.isLive h = false
  /-- It was never given out before, unless some slot has been through all its generations. -/
  unissued : ∀ limit ops, caller = (Locals.History.run limit ops).table →
    (∀ i, (Locals.History.run limit ops).released i < Handle.generations) →
    h ∉ (Locals.History.run limit ops).ledger.issued

/-- How an argument arrives that was converted to `u` for a parameter of kind `k`. -/
structure Arrives (caller : Locals ObjectRef) (w : World H) (k : Kind) (u : Value) (slot : Slot) :
    Prop where
  read : Slot.read w.resolve k slot = u
  word : ∀ bits, u.toBits = some bits → slot = bits
  null : u = .null → (⟨slot⟩ : Handle) = .null
  fresh : ∀ o, u = .ofObject o → FreshLocal caller w ⟨slot⟩ o

/-- The handles of objects among the words for parameters. -/
def passed (ks : List Kind) (slots : List Slot) : List Handle :=
  (ks.zip slots).filterMap fun p => if p.1 = .object ∧ p.2 ≠ 0 then some ⟨p.2⟩ else none

/-- What a function is called with, and in which state. -/
structure Delivered (mode : ConversionMode) (env : Env) (binding : Binding) (receiver : ObjectRef)
    (args : List Value) (w : World H) (a : Attachment) (c : NativeCall) (w' : World H) : Prop where
  address : c.address = binding.address
  env : c.env = env
  receiver : FreshLocal a.locals w' c.receiver receiver
  length : c.slots.length = binding.signature.params.length
  arguments : List.Forall₂
    (fun p slot => ∃ u, mode.convert p.2 p.1 .zero = .ok u ∧ Arrives a.locals w' p.1 u slot)
    (binding.signature.params.zip args) c.slots
  distinct : (c.receiver :: passed binding.signature.params c.slots).Nodup
  /-- Nothing but the table is changed, and the references that it held are still there. -/
  unchanged : ∃ t, w' = withLocals w a t ∧
    ∀ h o, a.locals.resolve h = some o → t.resolve h = some o

section Fresh

variable {w : World H} {a : Attachment} {n : Nat} {os : List ObjectRef}

theorem resolve_withLocals {t : Locals ObjectRef} {h : Handle} (ht : h.tag = .local) :
    (withLocals w a t).resolve h = t.resolve h := by
  rw [World.resolve, ht]
  rfl

theorem refKind_withLocals {t : Locals ObjectRef} {h : Handle} (ht : h.tag = .local)
    (hl : t.isLive h = true) : (withLocals w a t).refKind h = .local := by
  rw [World.refKind, ht]
  show (if t.isLive h = true then _ else _) = _
  rw [if_pos hl]

theorem freshLocal_extended (wf : a.locals.WellFormed)
    (e : (a.locals.opened n).Extensible os.length) {j : Nat} {o : ObjectRef}
    (hj : os[j]? = some o) :
    FreshLocal a.locals (withLocals w a ((a.locals.opened n).extended os))
      (a.locals.handleAt (a.locals.slots.size + j)) o := by
  have hlt : j < os.length := (List.getElem?_eq_some_iff.1 hj).1
  have hroom : a.locals.slots.size + os.length ≤ a.locals.limit := e.room
  have hmax : a.locals.slots.size + j ≤ Handle.maxIndex := by
    have := wf.limit_le
    omega
  have htag := Locals.handleAt_tag (t := a.locals) hmax
  have hnew : ((a.locals.opened n).extended os).resolve
      (a.locals.handleAt (a.locals.slots.size + j)) = some o :=
    e.resolve_extended.2 (.inr ⟨j, hj, rfl⟩)
  have hframes : ((a.locals.opened n).extended os).frames = (a.locals.opened n).frames :=
    Locals.Extensible.frames_extended os
  have hvacant : a.locals.occupant? (a.locals.slots.size + j) = none :=
    Locals.occupant?_eq_none_of_le (Nat.le_add_right _ _)
  refine ⟨(resolve_withLocals htag).trans hnew,
    refKind_withLocals htag (Locals.isLive_of_resolve hnew), ⟨_, rfl, ?_, ?_⟩, ?_, ?_⟩
  · show ((a.locals.opened n).extended os).depth = _
    rw [Locals.depth_eq, hframes]
    rfl
  · apply Locals.WellFormed.ownerOf_eq_depth (e.extended (n := 0)).wellFormed
    rw [Locals.handleAt_index hmax, (List.cons.inj hframes).1]
    exact Nat.le_add_right _ _
  · rw [Bool.eq_false_iff]
    intro hl
    obtain ⟨p, hp⟩ := Locals.isLive_iff.1 hl
    have := (Locals.resolve_eq_some_iff.1 hp).2.2
    rw [Locals.handleAt_index hmax, hvacant] at this
    cases this
  · intro limit ops hcaller hreleased
    have c := Locals.consistent_run limit ops hreleased
    rw [hcaller] at hmax hvacant ⊢
    exact c.handleAt_not_mem_issued hmax hvacant

end Fresh

theorem arrives_ofValue {caller : Locals ObjectRef} {w : World H} {h : Handle} {k : Kind}
    {u : Value} (hkind : u.kind = k)
    (hfresh : ∀ o, u = .ofObject o → FreshLocal caller w h o) :
    Arrives caller w k u (Slot.ofValue h u) where
  read := by
    subst hkind
    cases hbits : u.toBits with
    | some bits => rw [Slot.ofValue_of_toBits hbits, Slot.read_toBits hbits]
    | none =>
      cases u with
      | reference r =>
        cases r with
        | none => rfl
        | some o => exact congrArg Value.reference (hfresh o rfl).resolves
      | void => rfl
      | _ => cases hbits
  word := fun bits hbits => Slot.ofValue_of_toBits hbits
  null := by
    rintro rfl
    rfl
  fresh := by
    rintro o rfl
    exact hfresh o rfl

/-- The words stand for the values, if the handles stand for the objects. -/
theorem arrives_words {mode : ConversionMode} {caller : Locals ObjectRef} {w : World H}
    {handle : Nat → Handle} {n : Nat} {ps : List (Kind × Value)} {us : List Value}
    (hus : List.Forall₂ (Converts mode) ps us)
    (hfresh : ∀ j o, (objectsOf us)[j]? = some o → FreshLocal caller w (handle (n + j)) o) :
    List.Forall₂ (fun p slot => ∃ u, mode.convert p.2 p.1 .zero = .ok u ∧
      Arrives caller w p.1 u slot) ps (words handle n us) := by
  induction hus generalizing n with
  | nil => exact .nil
  | @cons p u ps us hu hus ih =>
    refine .cons ⟨u, hu, arrives_ofValue (ConversionMode.kind_of_convert hu) ?_⟩
      (ih fun j o hj => ?_)
    · rintro o rfl
      exact hfresh 0 o rfl
    · rw [Nat.add_assoc]
      apply hfresh
      rw [objectsOf_cons, List.getElem?_append_right (Nat.le_add_right _ _),
        Nat.add_sub_cancel_left]
      exact hj

theorem length_words (handle : Nat → Handle) (n : Nat) (us : List Value) :
    (words handle n us).length = us.length := by
  induction us generalizing n with
  | nil => rfl
  | cons u us ih => rw [words, List.length_cons, ih, List.length_cons]

/-- The objects are passed with the handles, one after the other. -/
theorem passed_words {mode : ConversionMode} {handle : Nat → Handle} {n : Nat}
    {ks : List Kind} {vs us : List Value} (hlength : vs.length = ks.length)
    (hus : List.Forall₂ (Converts mode) (ks.zip vs) us)
    (hnull : ∀ j, j < (objectsOf us).length → handle (n + j) ≠ .null) :
    passed ks (words handle n us) =
      (List.range' n (objectsOf us).length).map handle := by
  induction ks generalizing vs us n with
  | nil =>
    cases hus
    rfl
  | cons k ks ih =>
    obtain ⟨v, vs, rfl⟩ := List.exists_cons_of_length_eq_add_one hlength
    obtain ⟨u, us, hu, hus', rfl⟩ := List.forall₂_cons_left_iff.1 hus
    have hkind : u.kind = k := ConversionMode.kind_of_convert hu
    subst hkind
    have hskip : ∀ slot : Slot, ¬(u.kind = .object ∧ slot ≠ 0) →
        passed (u.kind :: ks) (slot :: words handle n us) = passed ks (words handle n us) :=
      fun _ h => List.filterMap_cons_none (if_neg h)
    cases u with
    | reference r =>
      cases r with
      | none =>
        exact (hskip 0 fun h => h.2 rfl).trans (ih (Nat.succ.inj hlength) hus' hnull)
      | some o =>
        have hne : (handle n).raw ≠ 0 := fun hz =>
          hnull 0 (Nat.succ_pos _) (congrArg Handle.mk hz)
        have hhead : passed (.object :: ks) ((handle n).raw :: words handle (n + 1) us) =
            handle n :: passed ks (words handle (n + 1) us) :=
          List.filterMap_cons_some (if_pos ⟨rfl, hne⟩)
        refine hhead.trans (congrArg _ (ih (Nat.succ.inj hlength) hus' fun j hj => ?_))
        rw [Nat.add_assoc, Nat.add_comm 1]
        exact hnull (j + 1) (Nat.succ_lt_succ hj)
    | _ => exact (hskip _ fun h => nomatch h.1).trans (ih (Nat.succ.inj hlength) hus' hnull)

/-- No argument is refused that is converted. -/
theorem not_refused {mode : ConversionMode} {ps : List (Kind × Value)} {us : List Value}
    (hus : List.Forall₂ (Converts mode) ps us) {p : Kind × Value} (hp : p ∈ ps)
    {e : ConversionError} : mode.convert p.2 p.1 .zero ≠ .error e := by
  induction hus with
  | nil => cases hp
  | cons hu _ ih =>
    rcases List.mem_cons.1 hp with rfl | hp
    · rw [hu]
      nofun
    · exact ih hp

section Deliver

variable {w : World H} {a : Attachment} {b : Bridge} {env : Env} {binding : Binding}
  {receiver : ObjectRef} {args : List Value}

theorem length_objectsOf_le (us : List Value) : (objectsOf us).length ≤ us.length :=
  List.length_filterMap_le _ _

theorem delivered_of_converts {mode : ConversionMode} (wf : a.locals.WellFormed)
    (hroom : a.locals.hasRoom (frameCapacity args) = true)
    (hlength : args.length = binding.signature.params.length) {us : List Value}
    (hus : List.Forall₂ (Converts mode) (binding.signature.params.zip args) us) :
    Delivered mode env binding receiver args w a
      ⟨binding.address, env, a.locals.handleAt a.locals.slots.size,
        words a.locals.handleAt (a.locals.slots.size + 1) us⟩
      (withLocals w a
        ((a.locals.opened (frameCapacity args)).extended (receiver :: objectsOf us))) := by
  have hcount : us.length = binding.signature.params.length := by
    rw [← hus.length_eq, List.length_zip, hlength, Nat.min_self]
  have e : (a.locals.opened (frameCapacity args)).Extensible
      (receiver :: objectsOf us).length := by
    apply (extensible_opened wf hroom).mono
    have := length_objectsOf_le us
    rw [List.length_cons]
    omega
  have hmax : ∀ j, j < (objectsOf us).length + 1 →
      a.locals.slots.size + j ≤ Handle.maxIndex := by
    intro j hj
    have hfits : a.locals.slots.size + ((objectsOf us).length + 1) ≤ a.locals.limit := e.room
    have := wf.limit_le
    omega
  have hpassed : a.locals.handleAt a.locals.slots.size :: passed binding.signature.params
      (words a.locals.handleAt (a.locals.slots.size + 1) us) =
        (List.range' a.locals.slots.size ((objectsOf us).length + 1)).map a.locals.handleAt := by
    rw [passed_words hlength hus, List.range'_succ, List.map_cons]
    intro j hj hnull
    have htag := Locals.handleAt_tag (t := a.locals) (hmax (j + 1) (Nat.succ_lt_succ hj))
    rw [Nat.add_comm j 1, ← Nat.add_assoc, hnull] at htag
    exact absurd htag (by decide)
  constructor
  case address => rfl
  case env => rfl
  case receiver => exact freshLocal_extended wf e (j := 0) rfl
  case length => exact (length_words _ _ us).trans hcount
  case arguments =>
    apply arrives_words hus
    intro j o hj
    rw [Nat.add_assoc, Nat.add_comm 1]
    exact freshLocal_extended wf e (j := j + 1) hj
  case distinct =>
    rw [hpassed]
    refine List.Nodup.map_on (fun i hi j hj hij => ?_) List.nodup_range'
    obtain ⟨hi, hi'⟩ := List.mem_range'_1.1 hi
    obtain ⟨hj, hj'⟩ := List.mem_range'_1.1 hj
    have hmaxi := hmax (i - a.locals.slots.size) (by omega)
    have hmaxj := hmax (j - a.locals.slots.size) (by omega)
    rw [Nat.add_sub_cancel' hi] at hmaxi
    rw [Nat.add_sub_cancel' hj] at hmaxj
    rw [← Locals.handleAt_index (t := a.locals) hmaxi, hij, Locals.handleAt_index hmaxj]
  case unchanged => exact ⟨_, rfl, fun h o ho => e.resolve_extended.2 (.inl ho)⟩

/-- An argument that is refused is the end of the call, once its frame is closed. -/
theorem finish_error_extended (n : Nat) (os : List ObjectRef) (e : EntryError) :
    ∃ w', finish (.error e) (withLocals w a ((a.locals.opened n).extended os)) = .error e w' := by
  have hframes : ((a.locals.opened n).extended os).frames = (a.locals.opened n).frames :=
    Locals.Extensible.frames_extended os
  have houter : ((a.locals.opened n).extended os).outer = a.locals.frame :: a.locals.outer :=
    (List.cons.inj hframes).2
  have hattachment : (withLocals w a ((a.locals.opened n).extended os)).attachment =
    some { a with locals := (a.locals.opened n).extended os } := rfl
  rw [finish_eq hattachment, Locals.pop?, Locals.close?_eq]
  simp only [houter]
  exact ⟨_, rfl⟩

/-- The function of a binding runs, and its word is read. -/
def ran (native : NativeCode H) (call : Invoker H) (result : Kind) (c : NativeCall) :
    Entry H Value := do
  let word ← (native call c).noError
  Action.read fun w => Slot.read w.resolve result word

theorem callBound_delivered {c : NativeCall} {w₁ : World H}
    (hprepare : prepare env binding receiver args w = .ok c w₁) (native : NativeCode H)
    (call : Invoker H) :
    callBound native call env binding receiver args w =
      ((ran native call binding.signature.result c).result >>= finish) w₁ := by
  obtain ⟨u, w₀, hpush, hmarshal⟩ := Action.of_bind_ok hprepare
  rw [callBound_eq, Action.bind_ok hpush]
  apply Action.bind_congr
  apply Action.result_congr
  rw [callInFrame_eq, Action.bind_ok hmarshal]
  rfl

theorem callBound_refused (ha : w.attachment = some a)
    (hroom : a.locals.hasRoom (frameCapacity args) = true) {e : EntryError} {w₁ : World H}
    (hprepare : prepare env binding receiver args w = .error e w₁) (native : NativeCode H)
    (call : Invoker H) :
    callBound native call env binding receiver args w = finish (.error e) w₁ := by
  have hpush := pushFrame_eq ha (frameCapacity args)
  rw [if_pos hroom] at hpush
  rw [prepare, Action.bind_ok hpush] at hprepare
  rw [callBound_eq, Action.bind_ok hpush,
    Action.bind_ok (Action.result_error (callInFrame_error hprepare))]

theorem of_finish_ok {r : Except EntryError Value} {v : Value} {w w' : World H}
    (h : finish r w = .ok v w') : r = .ok v := by
  obtain ⟨-, w₁, -, h⟩ := Action.of_bind_ok h
  obtain ⟨u, w₂, hr, h⟩ := Action.of_bind_ok h
  obtain ⟨taken, w₃, -, h⟩ := Action.of_bind_ok h
  cases r with
  | error e => cases hr
  | ok u' =>
    cases hr
    cases taken with
    | none =>
      cases h
      rfl
    | some o => cases h

/-- What a call answers is of the kind that its method declares. -/
theorem kind_of_callBound {native : NativeCode H} {call : Invoker H} {v : Value} {w w' : World H}
    (h : callBound native call env binding receiver args w = .ok v w') :
    v.kind = binding.signature.result := by
  rw [callBound_eq] at h
  obtain ⟨-, w₁, -, h⟩ := Action.of_bind_ok h
  obtain ⟨r, w₂, hr, h⟩ := Action.of_bind_ok h
  obtain rfl := of_finish_ok h
  have hframe := Action.returned_of_result hr
  rw [callInFrame_eq] at hframe
  obtain ⟨c, w₃, -, hframe⟩ := Action.of_bind_ok hframe
  obtain ⟨word, w₄, -, hframe⟩ := Action.of_bind_ok hframe
  cases hframe
  exact Slot.kind_read _ _

end Deliver

/-! ## Receivers of static methods -/

section Static

variable {w : World H} {b : Bridge} {m : MethodRef}

/-- A class answers the object that stands for it from now on. -/
theorem mirror_eq (ε : Type) {c : ClassId} (hc : c.index < w.states.size) :
    ∃ o w', (Guest.mirror c w : Outcome H ε ObjectRef) = .ok o w' ∧
      (w'.classState c).mirror = some o ∧ w'.thread = w.thread ∧ w'.bridge = w.bridge := by
  cases hm : (w.classState c).mirror with
  | some o =>
    refine ⟨o, w, ?_, hm, rfl, rfl⟩
    simp only [Guest.mirror, Action.step, hm]
  | none =>
    let w₁ := (w.newObject CoreClass.classObject.id (.mirror c)).2
    let s : ClassState := { w.classState c with mirror := some ⟨w.heap.size⟩ }
    refine ⟨⟨w.heap.size⟩, w₁.setClassState c s, ?_, ?_, rfl, rfl⟩
    · simp only [Guest.mirror, Action.step, hm]
      rfl
    · show ((w.states.setIfInBounds c.index s)[c.index]?.getD .ready).mirror = _
      rw [Array.getElem?_setIfInBounds_self, if_pos hc]
      rfl

/-- A method that is bound is called for its receiver; a static one is called for its class. -/
theorem runMethod_eq (hb : w.bridge = some b) {binding : Binding} {b' : Bridge}
    (hresolve : b.resolve w.registry m = .ok (binding, b'))
    (hcheck : b'.config.checkCallTarget = true → binding.checkTarget w.registry m = .ok ())
    (native : NativeCode H) (call : Invoker H) (env : Env) (receiver : Option ObjectRef)
    (args : List Value) :
    runMethod native call env m receiver args w =
      ((match receiver with
        | some o => pure o
        | none => Guest.mirror m.owner : Entry H ObjectRef) >>= fun o =>
          callBound native call env binding o args) { w with bridge := some b' } := by
  have hbridge : Entry.onBridge (fun b => (b.resolve w.registry m).mapError .bind) w =
      .ok binding { w with bridge := some b' } := Entry.onBridge_ok hb (by rw [hresolve]; rfl)
  have hread : (Action.read World.registry : Entry H Registry) w = .ok w.registry w := rfl
  rw [runMethod, Action.bind_ok hread, Action.bind_ok hbridge, Action.bind_ok (Entry.bridge_eq rfl)]
  dsimp only
  split
  next h =>
    rw [hcheck h]
    cases receiver <;> rfl
  next => cases receiver <;> rfl

end Static

/-! ## The arguments of a native call -/

/-- A call of a native method for which there is room.  If each argument is converted to the kind of
its parameter, the function is called, once, and with what is `Delivered`; otherwise the call fails
the same way whatever the function would do. -/
structure PassesArguments (mode : ConversionMode) (env : Env) (binding : Binding)
    (receiver : ObjectRef) (args : List Value) (w : World H) (a : Attachment) : Prop where
  called : (∀ p ∈ binding.signature.params.zip args, ∃ u, mode.convert p.2 p.1 .zero = .ok u) →
    ∃ c w₁, Delivered mode env binding receiver args w a c w₁ ∧
      ∀ (native : NativeCode H) (call : Invoker H),
        callBound native call env binding receiver args w =
          ((ran native call binding.signature.result c).result >>= finish) w₁
  refused : (∃ p ∈ binding.signature.params.zip args, ∃ e,
      mode.convert p.2 p.1 .zero = .error e) →
    ∃ p ∈ binding.signature.params.zip args, ∃ e w₁, mode.convert p.2 p.1 .zero = .error e ∧
      ∀ (native : NativeCode H) (call : Invoker H),
        callBound native call env binding receiver args w = .error (.conversion e) w₁

theorem passesArguments {env : Env} {binding : Binding} {receiver : ObjectRef}
    {args : List Value} {w : World H} {a : Attachment} {b : Bridge} (ha : w.attachment = some a)
    (wf : a.locals.WellFormed) (hb : w.bridge = some b)
    (hlength : args.length = binding.signature.params.length)
    (hroom : a.locals.hasRoom (frameCapacity args) = true) :
    PassesArguments b.config.conversion env binding receiver args w a := by
  rcases prepare_cases env binding receiver ha wf hb hroom with
    ⟨us, hus, hok⟩ | ⟨e, os, ⟨p, hp, hconvert⟩, herr⟩
  · refine ⟨fun _ => ?_, fun ⟨p, hp, e, hconvert⟩ => absurd hconvert (not_refused hus hp)⟩
    exact ⟨_, _, delivered_of_converts wf hroom hlength hus, callBound_delivered hok⟩
  · constructor
    · intro hall
      obtain ⟨u, hu⟩ := hall p hp
      rw [hconvert] at hu
      cases hu
    · intro _
      obtain ⟨w₁, hfinish⟩ := finish_error_extended (w := w) (a := a) (frameCapacity args) os
        (.conversion e)
      exact ⟨p, hp, e, w₁, hconvert, fun native call =>
        (callBound_refused ha hroom herr native call).trans hfinish⟩

/-- A native function is called with the environment, a reference to its receiver or its class, and
one argument for each parameter, as the conversion gives it.  Without room for the frame, or if an
argument is refused, it is not called; nothing else keeps it from being called.  What a call answers
is of the declared kind. -/
theorem arguments_are_delivered (env : Env) (binding : Binding) (args : List Value)
    {w : World H} {a : Attachment} {b : Bridge} (ha : w.attachment = some a)
    (hreachable : a.locals.Reachable) (hb : w.bridge = some b)
    (hlength : args.length = binding.signature.params.length) :
    (∀ receiver, a.locals.hasRoom (frameCapacity args) = true →
      PassesArguments b.config.conversion env binding receiver args w a) ∧
    (∀ receiver, a.locals.hasRoom (frameCapacity args) = false →
      ∀ (native : NativeCode H) (call : Invoker H),
        callBound native call env binding receiver args w =
          .error (.alloc (.localLimit a.locals.limit)) w) ∧
    (∀ receiver (native : NativeCode H) (call : Invoker H) v w',
      callBound native call env binding receiver args w = .ok v w' →
        v.kind = binding.signature.result) ∧
    (∀ m b', b.resolve w.registry m = .ok (binding, b') →
      (b'.config.checkCallTarget = true → binding.checkTarget w.registry m = .ok ()) →
      (∀ receiver (native : NativeCode H) (call : Invoker H),
        runMethod native call env m (some receiver) args w =
          callBound native call env binding receiver args { w with bridge := some b' }) ∧
      (m.owner.index < w.states.size → ∃ o w', (w'.classState m.owner).mirror = some o ∧
        w'.thread = w.thread ∧ w'.bridge = some b' ∧
        ∀ (native : NativeCode H) (call : Invoker H),
          runMethod native call env m none args w =
            callBound native call env binding o args w')) := by
  refine ⟨fun receiver hroom => passesArguments ha hreachable.wellFormed hb hlength hroom,
    fun receiver hroom native call => ?_, fun receiver native call v w' => kind_of_callBound,
    fun m b' hresolve hcheck => ⟨fun receiver native call => ?_, fun hm => ?_⟩⟩
  · have hpush := pushFrame_eq ha (frameCapacity args)
    rw [hroom] at hpush
    rw [callBound_eq]
    exact Action.bind_error hpush
  · exact runMethod_eq hb hresolve hcheck native call env (some receiver) args
  · obtain ⟨o, w', hmirror, hstate, hthread, hbridge⟩ :=
      mirror_eq EntryError (w := { w with bridge := some b' }) hm
    refine ⟨o, w', hstate, hthread, hbridge, fun native call => ?_⟩
    rw [runMethod_eq hb hresolve hcheck native call env none args]
    exact Action.bind_ok hmirror

/-- A function of an object, a number and another object. -/
def mixedBinding : Binding :=
  ⟨⟨⟨0⟩, 0⟩, ⟨1⟩, ⟨"(Ljava/lang/Object;ILjava/lang/Object;)I",
    [.object, .primitive .int, .object], .primitive .int⟩⟩

/-- An object, a number and null are delivered. -/
theorem mixed_arguments_are_delivered :
    (∀ p ∈ mixedBinding.signature.params.zip [.ofObject ⟨3⟩, .int 5, .null],
      ∃ u, ConversionMode.convert .compatibility p.2 p.1 .zero = .ok u) ∧
    ∃ c w₁, Delivered .compatibility ⟨⟨0⟩, 0⟩ mixedBinding ⟨0⟩ [.ofObject ⟨3⟩, .int 5, .null]
      callerThread ⟨0, callerLocals, .empty⟩ c w₁ := by
  have hconvert : ∀ p ∈ mixedBinding.signature.params.zip [.ofObject ⟨3⟩, .int 5, .null],
      ∃ u, ConversionMode.convert .compatibility p.2 p.1 .zero = .ok u := by
    intro p hp
    have : p = (.object, .ofObject ⟨3⟩) ∨ p = (.primitive .int, .int 5) ∨ p = (.object, .null) := by
      simpa [mixedBinding] using hp
    rcases this with rfl | rfl | rfl <;> exact ⟨_, rfl⟩
  have hreachable : callerLocals.Reachable := (Locals.Reachable.empty 4096).after _
  obtain ⟨hpasses, -⟩ := arguments_are_delivered (H := Recorded Unit) ⟨⟨0⟩, 0⟩ mixedBinding
    [.ofObject ⟨3⟩, .int 5, .null] (w := callerThread) (a := ⟨0, callerLocals, .empty⟩) rfl
    hreachable rfl rfl
  obtain ⟨c, w₁, hdelivered, -⟩ := (hpasses ⟨0⟩ (by decide)).called hconvert
  exact ⟨hconvert, c, w₁, hdelivered⟩

end Native

end GuestBoundary
