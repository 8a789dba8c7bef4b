import GuestBoundary.Guest.Invocation
import GuestBoundary.Proofs.Classes.Growth
import GuestBoundary.Proofs.Effects.Keeps
import GuestBoundary.Proofs.Heap.Growth

/-!
# What guest code does on its own

Without the calls that it makes, guest code leaves the threads and the host alone, and the classes
where they are: it is `Still`, and `Plain` if it throws nothing but faults.  A relation is
`GuestNeutral` if it does not see such changes and is kept where classes are initialized, and
`CallNeutral` if it also sees through one more call in progress.
-/

namespace GuestBoundary

variable {H ε α : Type} {R : World H → World H → Prop}

/-! ## Changes that guest code makes -/

namespace World

/-- Another number of calls in progress. -/
def setDepth (w : World H) (depth : Nat) : World H := { w with thread := { w.thread with depth } }

/-- Where a state keeps its classes, and what native code can be reached through. -/
def classSide (w : World H) : Registry × Array ClassState × List ClassId × Option Bridge :=
  (w.registry, w.states, w.started, w.bridge)

/-- The classes of the first state stand in the second one as they did, and no more is started. -/
structure SameClasses (w w' : World H) : Prop where
  registry : w.registry.Extends w'.registry
  init : ∀ c, (w'.classState c).init = (w.classState c).init
  sized : w.states.size = w.registry.size → w'.states.size = w'.registry.size
  started : w'.started = w.started
  /-- Without a bridge there is no native code. -/
  unbridged : w.bridge = none → w'.bridge = none

theorem SameClasses.of_eq {w w' : World H} (h : w'.classSide = w.classSide) :
    SameClasses w w' := by
  obtain ⟨registry, h⟩ := Prod.mk.inj h
  obtain ⟨states, h⟩ := Prod.mk.inj h
  obtain ⟨started, bridge⟩ := Prod.mk.inj h
  refine ⟨registry ▸ .refl _, fun c => ?_, fun h => ?_, started, fun h => bridge.trans h⟩
  · rw [classState, classState, states]
  · rw [states, registry, h]

theorem SameClasses.trans {w w' w'' : World H} (h : SameClasses w w') (h' : SameClasses w' w'') :
    SameClasses w w'' where
  registry := h.registry.trans h'.registry
  init c := (h'.init c).trans (h.init c)
  sized hs := h'.sized (h.sized hs)
  started := h'.started.trans h.started
  unbridged hb := h'.unbridged (h.unbridged hb)

theorem classState_setClassState (w : World H) (c d : ClassId) (s : ClassState) :
    (w.setClassState c s).classState d =
      if c = d ∧ d.index < w.states.size then s else w.classState d := by
  show (w.states.setIfInBounds c.index s)[d.index]?.getD .ready = _
  by_cases hindex : c.index = d.index
  · obtain rfl : c = d := by
      obtain ⟨i⟩ := c
      obtain ⟨j⟩ := d
      exact congrArg ClassId.mk hindex
    by_cases hlt : c.index < w.states.size
    · rw [if_pos ⟨rfl, hlt⟩, Array.getElem?_setIfInBounds_self_of_lt hlt]
      rfl
    · rw [if_neg fun h => hlt h.2, classState, Array.setIfInBounds_eq_of_size_le (by omega)]
  · rw [if_neg fun h => hindex (congrArg ClassId.index h.1),
      Array.getElem?_setIfInBounds_ne hindex]
    rfl

/-- Another state of a class that has come as far. -/
theorem sameClasses_setClassState {w : World H} {c : ClassId} {s : ClassState}
    (h : s.init = (w.classState c).init) : SameClasses w (w.setClassState c s) where
  registry := .refl _
  init d := by
    rw [classState_setClassState]
    split
    case isTrue hd => rw [h, hd.1]
    case isFalse => rfl
  sized hs := (Array.size_setIfInBounds ..).trans hs
  started := rfl
  unbridged := id

theorem sameClasses_withBridge {w : World H} {b : Bridge} (hb : w.bridge = some b) (b' : Bridge) :
    SameClasses w { w with bridge := some b' } where
  registry := .refl _
  init _ := rfl
  sized := id
  started := rfl
  unbridged h := nomatch hb.symm.trans h

theorem classState_withRegistry (w : World H) (r : Registry) (c : ClassId) :
    (w.withRegistry r).classState c = w.classState c := by
  show (w.states ++ Array.replicate _ ClassState.ready)[c.index]?.getD .ready = _
  rw [Array.getElem?_append, classState]
  split
  · rfl
  · rw [Array.getElem?_replicate, Array.getElem?_eq_none (by omega)]
    split <;> rfl

theorem size_states_withRegistry {w : World H} {r : Registry} (h : w.states.size ≤ r.size) :
    (w.withRegistry r).states.size = r.size := by
  show (w.states ++ Array.replicate _ ClassState.ready).size = _
  rw [Array.size_append, Array.size_replicate]
  omega

theorem sameClasses_withRegistry {w : World H} {r : Registry} (h : w.registry.Extends r) :
    SameClasses w (w.withRegistry r) where
  registry := h
  init c := by rw [classState_withRegistry]
  sized hs := size_states_withRegistry (Nat.le_trans (Nat.le_of_eq hs) h.size_le)
  started := rfl
  unbridged := id

theorem object_setObject_self {w : World H} {o : ObjectRef} (ho : o.index < w.heap.size)
    (object : Object) : (w.setObject o object).object o = object := Heap.get_set_self ho object

theorem object_setObject_of_ne {w : World H} {o o' : ObjectRef} (hne : o ≠ o') (object : Object) :
    (w.setObject o object).object o' = w.object o' := Heap.get_set_of_ne hne object

/-- What there is besides classes and objects. -/
def outerSide (w : World H) : Thread × List Thread × H × Nat × Option Bridge :=
  (w.thread, w.waiting, w.host, w.maxCallDepth, w.bridge)

/-- The threads, the bridge and the host are the same, the classes stand as they did, and objects
keep their classes and what they stand for. -/
structure SameSide (w w' : World H) : Prop where
  thread : w'.thread = w.thread
  waiting : w'.waiting = w.waiting
  host : w'.host = w.host
  limit : w'.maxCallDepth = w.maxCallDepth
  bridge : w'.bridge = w.bridge
  classes : SameClasses w w'
  heap : w.heap.Develops w'.heap

theorem SameSide.of_eq {w w' : World H} (h : w'.outerSide = w.outerSide)
    (classes : SameClasses w w') (heap : w.heap.Develops w'.heap) : SameSide w w' := by
  obtain ⟨thread, h⟩ := Prod.mk.inj h
  obtain ⟨waiting, h⟩ := Prod.mk.inj h
  obtain ⟨host, h⟩ := Prod.mk.inj h
  obtain ⟨limit, bridge⟩ := Prod.mk.inj h
  exact ⟨thread, waiting, host, limit, bridge, classes, heap⟩

theorem SameSide.refl (w : World H) : SameSide w w := .of_eq rfl (.of_eq rfl) (.refl _)

theorem SameSide.trans {w w' w'' : World H} (h : SameSide w w') (h' : SameSide w' w'') :
    SameSide w w'' where
  thread := h'.thread.trans h.thread
  waiting := h'.waiting.trans h.waiting
  host := h'.host.trans h.host
  limit := h'.limit.trans h.limit
  bridge := h'.bridge.trans h.bridge
  classes := h.classes.trans h'.classes
  heap := h.heap.trans h'.heap

theorem sameSide_getD {w w' : World H} {x : Option (World H)} (h : SameSide w w')
    (hx : ∀ v, x = some v → SameSide w v) : SameSide w (x.getD w') := by
  cases x with
  | none => exact h
  | some v => exact hx v rfl

theorem sameSide_newObject (w : World H) (c : ClassId) (body : ObjectBody) :
    SameSide w (w.newObject c body).2 := .of_eq rfl (.of_eq rfl) (.push _ _)

theorem sameSide_setObject {w : World H} {o : ObjectRef} {object : Object}
    (h : object.classId = (w.object o).classId)
    (hb : (w.object o).body.StandsIn → object.body = (w.object o).body) :
    SameSide w (w.setObject o object) :=
  .of_eq rfl (.of_eq rfl) (.set _ h hb)

theorem sameSide_setField? {w v : World H} {o : ObjectRef} {f : FieldRef} {x : Value}
    (h : w.setField? o f x = some v) : SameSide w v := by
  obtain ⟨object, hobject, rfl⟩ := Option.map_eq_some_iff.1 h
  exact sameSide_setObject (Object.classId_setField? hobject) fun hs =>
    absurd hs (Object.not_standsIn_setField? hobject)

theorem sameSide_setStatic? {w v : World H} {c : ClassId} {f : FieldRef} {x : Value}
    (h : w.setStatic? c f x = some v) : SameSide w v := by
  simp only [setStatic?] at h
  split at h
  · cases h
    exact .of_eq rfl (sameClasses_setClassState rfl) (.refl _)
  · cases h

theorem sameSide_setMessage (w : World H) (o : ObjectRef) (v : Value) :
    SameSide w (w.setMessage o v) := by
  refine sameSide_getD (SameSide.refl w) fun w' h => ?_
  obtain ⟨f, -, h⟩ := Option.bind_eq_some_iff.1 h
  exact sameSide_setField? h

theorem sameSide_materialize (w : World H) (f : GuestFault) : SameSide w (w.materialize f).2 := by
  let made := w.newInstance ((w.registry.find? f.kind.className).getD CoreClass.throwable.id)
  have h : SameSide w (made.2.newString (Text.units f.message)).2 :=
    (sameSide_newObject ..).trans (sameSide_newObject ..)
  exact h.trans (sameSide_setMessage _ _ _)

/-- The throwable of a fault is of the class of the fault's name, if there is one. -/
theorem classOf_materialize (w : World H) (f : GuestFault) :
    (w.materialize f).2.classOf (w.materialize f).1 =
      (w.registry.find? f.kind.className).getD CoreClass.throwable.id := by
  let c := (w.registry.find? f.kind.className).getD CoreClass.throwable.id
  let made := (w.newInstance c).2
  have hmade : made.classOf ⟨w.heap.size⟩ = c :=
    congrArg Object.classId (Heap.get_push_self w.heap _)
  have hlt : w.heap.size < made.heap.size :=
    Nat.lt_of_lt_of_eq (Nat.lt_succ_self _) (Heap.size_push _ _).symm
  have same : SameSide made (w.materialize f).2 :=
    (sameSide_newObject ..).trans (sameSide_setMessage _ _ _)
  exact (same.heap.classId_eq ⟨w.heap.size⟩ hlt).trans hmade

end World

/-- The action comes to an end, and the threads, the host and the classes are as before. -/
def Still (a : Action H ε α) : Prop :=
  ∀ w, (a w).Leaves (World.SameSide w) ∧ (a w).Settles (World.SameSide w)

namespace Still

open World

theorem pure (a : α) : Still (Pure.pure a : Action H ε α) := fun w => ⟨.refl w, .refl w⟩

theorem fail (e : ε) : Still (Action.fail e : Action H ε α) := fun w => ⟨.refl w, .refl w⟩

theorem panic (m : Option String) : Still (Action.panic m : Action H ε α) :=
  fun w => ⟨.refl w, trivial⟩

end Still

/-- How an action of guest code comes to an end that calls no method: it answers, or it throws the
throwable of a fault and has done nothing else. -/
inductive Outcome.Plain (w : World H) : Outcome H ObjectRef α → Prop
  | ok (x : α) {w' : World H} (same : World.SameSide w w') : Plain w (.ok x w')
  | thrown (f : GuestFault) : Plain w (.error (w.materialize f).1 (w.materialize f).2)

/-- The action comes to its end without a call. -/
def Plain (a : Guest H α) : Prop := ∀ w, (a w).Plain w

namespace Plain

open World

theorem still {a : Guest H α} (h : Plain a) : Still a := by
  intro w
  have := h w
  cases hr : a w with
  | ok x w' =>
    rw [hr] at this
    cases this with
    | ok x same => exact ⟨same, same⟩
  | error o w' =>
    rw [hr] at this
    cases this with
    | thrown f => exact ⟨w.sameSide_materialize f, w.sameSide_materialize f⟩
  | panic m w' =>
    rw [hr] at this
    cases this
  | halt r w' =>
    rw [hr] at this
    cases this

theorem pure (a : α) : Plain (Pure.pure a : Guest H α) := fun w => .ok a (.refl w)

theorem world : Plain (Action.world : Guest H (World H)) := fun w => .ok w (.refl w)

theorem read (f : World H → α) : Plain (Action.read f : Guest H α) := fun w => .ok _ (.refl w)

theorem update {f : World H → World H} (h : ∀ w, SameSide w (f w)) :
    Plain (Action.update f : Guest H Unit) := fun w => .ok () (h w)

theorem step {f : World H → α × World H} (h : ∀ w, SameSide w (f w).2) :
    Plain (Action.step f : Guest H α) := fun w => .ok _ (h w)

theorem throwFault (f : GuestFault) : Plain (Guest.throwFault f : Guest H α) := fun _ => .thrown f

theorem ofFault (r : Except GuestFault α) : Plain (Guest.ofFault r : Guest H α) := by
  cases r with
  | ok a => exact pure a
  | error f => exact throwFault f

theorem findClass (name : String) : Plain (Guest.findClass name : Guest H ClassId) := by
  intro w
  unfold Guest.findClass
  cases h : w.registry.findClass name with
  | ok p =>
    exact .ok _ (.of_eq rfl (sameClasses_withRegistry (Registry.extends_findClass h)) (.refl _))
  | error f => exact .thrown f

theorem arrayClass (component : Component) :
    Plain (Guest.arrayClass component : Guest H ClassId) := step fun w =>
  .of_eq rfl (sameClasses_withRegistry (w.registry.extends_arrayClass _)) (.refl _)

theorem resolveField (c : ClassId) (name descriptor : String) (isStatic : Bool) :
    Plain (Guest.resolveField c name descriptor isStatic : Guest H FieldRef) :=
  fun w => ofFault _ w

theorem resolveMethod (c : ClassId) (name descriptor : String) (isStatic : Bool) :
    Plain (Guest.resolveMethod c name descriptor isStatic : Guest H MethodRef) :=
  fun w => ofFault _ w

theorem dispatch (o : ObjectRef) (m : MethodRef) : Plain (Guest.dispatch o m : Guest H MethodRef) :=
  fun w => ofFault _ w

theorem newObject (c : World H → ClassId) (body : World H → ObjectBody) :
    Plain (Action.step fun w => w.newObject (c w) (body w) : Guest H ObjectRef) :=
  step fun w => w.sameSide_newObject _ _

theorem newString (units : List Text.Unit16) :
    Plain (Guest.newString units : Guest H ObjectRef) := newObject _ _

end Plain

/-- Calls of methods keep the relation. -/
def CallsKeep (R : World H → World H → Prop) (call : Invoker H) : Prop :=
  ∀ m receiver args, Keeps R (call m receiver args)

/-- The relation does not see what guest code does on its own. -/
structure GuestNeutral (R : World H → World H → Prop) : Prop extends Composable R where
  sameSide : ∀ {w w'}, World.SameSide w w' → R w w'
  initClass : ∀ {call : Invoker H}, CallsKeep R call → ∀ c, Keeps R (Guest.initClass call c)

/-- The relation does not see calls in progress either. -/
structure CallNeutral (R : World H → World H → Prop) : Prop extends GuestNeutral R where
  inCall : ∀ {w w'}, R (w.setDepth (w.thread.depth + 1)) w' →
    R w (w'.setDepth (w'.thread.depth - 1))

namespace GuestNeutral

variable (n : GuestNeutral R)
include n

theorem still {a : Action H ε α} (h : Still a) : Keeps R a :=
  fun w => (h w).1.mono fun _ => n.sameSide

theorem holding {a : Action H ε α} (objects : List ObjectRef) (ha : Keeps R a) :
    Keeps R (Action.holding objects a) := by
  intro w
  refine Outcome.leaves_andFinally ((ha _).mono fun w' h => ?_)
  refine n.trans (n.trans (n.sameSide ?_) h) (n.sameSide ?_)
  · exact .of_eq rfl (.of_eq rfl) (.refl _)
  · exact .of_eq rfl (.of_eq rfl) (.refl _)

theorem throwFault (f : GuestFault) : Keeps R (Guest.throwFault f : Guest H α) :=
  n.still (Plain.throwFault f).still

end GuestNeutral

theorem CallNeutral.oneMore (n : CallNeutral R) {a : Action H ε α} (ha : Keeps R a) :
    Keeps R (Guest.inCall a) :=
  fun _ => Outcome.leaves_andFinally ((ha _).mono fun _ h => n.inCall h)

end GuestBoundary
