import GuestBoundary.Proofs.Classes.Lookup
import GuestBoundary.Proofs.Effects.Development
import GuestBoundary.Proofs.Guest.Readiness
import GuestBoundary.Proofs.Interface.FieldValues

/-!
# Numbers of members in the hands of native code

Native code asks a class for the number of a member, and it turns numbers into objects that stand
for members and back.  What it was answered stays true: however the run goes on, whoever asks for
the member is answered the same number, and an object made of a number leads back to it
(`member_numbers_are_stable`).  Methods and fields are treated alike.
-/

namespace GuestBoundary

open Interface

variable {H α β γ : Type}

/-! ## Functions for methods and for fields -/

namespace MemberSort

/-- What messages call a member. -/
def word : MemberSort → String
  | method => "method"
  | field => "field"

/-- The function that answers the number of a member. -/
def lookup : MemberSort → FieldMode → Function
  | method, mode => .getMethodId mode
  | field, mode => .getFieldId mode

/-- The function that makes an object of a number. -/
def reflect : MemberSort → Function
  | method => .toReflectedMethod
  | field => .toReflectedField

/-- The function that answers the number of the member that an object stands for. -/
def unreflect : MemberSort → Function
  | method => .fromReflectedMethod
  | field => .fromReflectedField

end MemberSort

def Member.owner : Member → ClassId
  | .method m => m.owner
  | .field f => f.owner

/-- How messages write a member. -/
def Registry.describeMember (r : Registry) : Member → String
  | .method m => r.describeMethod m
  | .field f => r.describeField f

/-- A new object that stands for a member. -/
def Guest.reflectMember {ε : Type} : Member → Action H ε ObjectRef
  | .method m => Guest.reflectMethod m
  | .field f => Guest.reflectField f

namespace Bridge

variable {b b' : Bridge} {id : UInt64} {m : Member} {s : MemberSort}

/-- The number of a member, and the bridge on which it has it. -/
def idFor (b : Bridge) : Member → UInt64 × Bridge
  | .method m => ((b.methods.idFor m).1, { b with methods := (b.methods.idFor m).2 })
  | .field f => ((b.fields.idFor f).1, { b with fields := (b.fields.idFor f).2 })

/-- The member of a sort that a number names. -/
def find (b : Bridge) (s : MemberSort) (id : UInt64) : Except ContractViolation Member :=
  match s with
  | .method => (b.methods.find id).map .method
  | .field => (b.fields.find id).map .field

/-- The number names the member, and no member has two numbers. -/
def Numbers (b : Bridge) (id : UInt64) : Member → Prop
  | .method m => b.methods.Indexed ∧ b.methods.find id = .ok m
  | .field f => b.fields.Indexed ∧ b.fields.find id = .ok f

theorem Develops.numbers (h : b.Develops b') (hm : b.Numbers id m) : b'.Numbers id m := by
  cases m with
  | method m => exact ⟨h.methods.indexed hm.1, h.methods.find hm.2⟩
  | field f => exact ⟨h.fields.indexed hm.1, h.fields.find hm.2⟩

/-- A member that has a number is given it, and nothing changes. -/
theorem Numbers.idFor (h : b.Numbers id m) : b.idFor m = (id, b) := by
  cases m with
  | method m => rw [Bridge.idFor, h.1.idFor_of_find h.2]
  | field f => rw [Bridge.idFor, h.1.idFor_of_find h.2]

/-- The number that a member is given names it, if there is one for every member. -/
theorem numbers_idFor (hx : b.Indexed) (hfits : (b.idFor m).2.Fits) :
    (b.idFor m).2.Numbers (b.idFor m).1 m := by
  cases m with
  | method m =>
    exact ⟨(MemberTable.Extends.idFor _ m).indexed hx.methods, hx.methods.find_idFor hfits.methods⟩
  | field f =>
    exact ⟨(MemberTable.Extends.idFor _ f).indexed hx.fields, hx.fields.find_idFor hfits.fields⟩

theorem numbers_of_find (hx : b.Indexed) (h : b.find s id = .ok m) :
    m.sort = s ∧ b.Numbers id m := by
  cases s with
  | method =>
    obtain ⟨n, hn, rfl⟩ := Registry.map_eq_ok_iff.1 h
    exact ⟨rfl, hx.methods, hn⟩
  | field =>
    obtain ⟨f, hf, rfl⟩ := Registry.map_eq_ok_iff.1 h
    exact ⟨rfl, hx.fields, hf⟩

end Bridge

/-! ## What the functions do -/

namespace Entry

/-- The number of a member. -/
def memberId (m : Member) : Entry H UInt64 := onBridge fun b => .ok (b.idFor m)

/-- The member of a sort that a number names. -/
def member (s : MemberSort) (id : UInt64) : Entry H Member := do
  let b ← bridge
  Action.ofExcept ((b.find s id).mapError .contract)

/-- The member of a sort that a name and a descriptor stand for. -/
def resolveMember (s : MemberSort) (c : ClassId) (name descriptor : String) (isStatic : Bool) :
    Entry H Member :=
  guest fun w => Guest.ofFault (w.registry.resolveMember s c name descriptor isStatic) w

end Entry

namespace Interface

open Entry

/-- The number of the member with a name and a descriptor. -/
def lookupMember (call : Invoker H) (s : MemberSort) (mode : FieldMode) (h : Handle)
    (name descriptor : Option (List UInt8)) : Entry H UInt64 := do
  let c ← classOf h
  guest (Guest.initClass call c)
  let name ← text name (s.word ++ " name")
  let descriptor ← text descriptor (s.word ++ " signature")
  let m ← resolveMember s c name descriptor mode.isStatic
  memberId m

/-- A local reference to a new object that stands for a member of a class. -/
def toReflected (s : MemberSort) (h : Handle) (id : UInt64) (isStatic : Bool) : Entry H Handle := do
  let c ← classOf h
  let m ← member s id
  let r ← Action.read World.registry
  checkOwner c m.owner (r.isStaticMember m) isStatic (r.describeMember m)
  let o ← Guest.reflectMember m
  newLocal (some o)

/-- The number of the member of a sort that an object stands for. -/
def fromReflected (s : MemberSort) (h : Handle) : Entry H UInt64 := do
  let (o, m) ← memberOf h s.word
  match m with
  | some m => if m.sort = s then memberId m else notReflected o s.word
  | none => notReflected o s.word

section OfFault

variable {r : World H → Except GuestFault α} {w : World H}

theorem guest_ofFault_ok {x : α} (hr : r w = .ok x) :
    guest (fun w => Guest.ofFault (r w) w) w = .ok x w := guest_ok (by rw [hr]; rfl)

theorem guest_ofFault_error {f : GuestFault} (hr : r w = .error f) :
    guest (fun w => Guest.ofFault (r w) w) w =
      .error (.thrown (w.materialize f).1) (w.materialize f).2 := guest_error (by rw [hr]; rfl)

theorem guest_bind_map (g : α → β) (f : β → Entry H γ) :
    (guest (fun w => Guest.ofFault (r w) w) >>= fun x => f (g x)) =
      guest (fun w => Guest.ofFault ((r w).map g) w) >>= f := by
  funext w
  cases hr : r w with
  | ok x =>
    have hmap : (r w).map g = .ok (g x) := by rw [hr]; rfl
    rw [Action.bind_ok (guest_ofFault_ok hr),
      Action.bind_ok (guest_ofFault_ok (r := fun w => (r w).map g) hmap)]
  | error e =>
    have hmap : (r w).map g = .error e := by rw [hr]; rfl
    rw [Action.bind_error (guest_ofFault_error hr),
      Action.bind_error (guest_ofFault_error (r := fun w => (r w).map g) hmap)]

end OfFault

theorem resolveMethod_bind (c : ClassId) (name descriptor : String) (isStatic : Bool)
    (f : Member → Entry H α) :
    (guest (Guest.resolveMethod c name descriptor isStatic) >>= fun m => f (.method m)) =
      resolveMember .method c name descriptor isStatic >>= f := guest_bind_map Member.method f

theorem resolveField_bind (c : ClassId) (name descriptor : String) (isStatic : Bool)
    (f : Member → Entry H α) :
    (guest (Guest.resolveField c name descriptor isStatic) >>= fun m => f (.field m)) =
      resolveMember .field c name descriptor isStatic >>= f := guest_bind_map Member.field f

theorem method_bind (id : UInt64) (f : Member → Entry H α) :
    (method id >>= fun m => f (.method m)) = member .method id >>= f := by
  rw [method, member, Action.bind_assoc, Action.bind_assoc]
  refine congrArg (bridge >>= ·) (funext fun b => ?_)
  rw [Bridge.find]
  cases b.methods.find id <;> rfl

theorem field_bind (id : UInt64) (f : Member → Entry H α) :
    (field id >>= fun m => f (.field m)) = member .field id >>= f := by
  rw [field, member, Action.bind_assoc, Action.bind_assoc]
  refine congrArg (bridge >>= ·) (funext fun b => ?_)
  rw [Bridge.find]
  cases b.fields.find id <;> rfl

variable (call : Invoker H) (s : MemberSort)

theorem perform_lookup (mode : FieldMode) (h : Handle) (name descriptor : Option (List UInt8)) :
    perform call (s.lookup mode) [.handle h, .text name, .text descriptor] =
      answerMember (lookupMember call s mode h name descriptor) := by
  cases s with
  | method =>
    show answerMember (getMethodId call mode h name descriptor) = _
    simp only [lookupMember, ← resolveMethod_bind]
    rfl
  | field =>
    show answerMember (getFieldId call mode h name descriptor) = _
    simp only [lookupMember, ← resolveField_bind]
    rfl

theorem perform_reflect (h : Handle) (id : UInt64) (isStatic : Bool) :
    perform call s.reflect [.handle h, .member id, .primitive (.boolean isStatic)] =
      answerHandle (toReflected s h id isStatic) := by
  cases s with
  | method =>
    show answerHandle (toReflectedMethod h id isStatic) = _
    simp only [toReflected, ← method_bind]
    rfl
  | field =>
    show answerHandle (toReflectedField h id isStatic) = _
    simp only [toReflected, ← field_bind]
    rfl

theorem perform_unreflect (h : Handle) :
    perform call s.unreflect [.handle h] = answerMember (fromReflected s h) := by
  cases s with
  | method =>
    refine congrArg answerMember (congrArg (memberOf h "method" >>= ·) (funext fun (o, m) => ?_))
    cases m with
    | none => rfl
    | some m => cases m <;> rfl
  | field =>
    refine congrArg answerMember (congrArg (memberOf h "field" >>= ·) (funext fun (o, m) => ?_))
    cases m with
    | none => rfl
    | some m => cases m <;> rfl

end Interface

/-! ## What was answered stays true -/

namespace World

variable {w v : World H} {c : ClassId} {name descriptor : String} {isStatic : Bool} {id : UInt64}
  {m : Member} {o : ObjectRef}

/-- There is a number for every member. -/
def NumbersFit (w : World H) : Prop := ∀ b, w.bridge = some b → b.Fits

/-- The number names the member, and no member has two numbers. -/
def Numbers (w : World H) (id : UInt64) (m : Member) : Prop :=
  ∃ b, w.bridge = some b ∧ b.Numbers id m

/-- In a class, a name and a descriptor stand for the member, which the number names. -/
structure Assigned (w : World H) (c : ClassId) (name descriptor : String) (isStatic : Bool)
    (id : UInt64) (m : Member) : Prop where
  searchable : w.registry.Searchable
  resolve : w.registry.resolveMember m.sort c name descriptor isStatic = .ok m
  numbers : w.Numbers id m

/-- The object stands for the member, which the number names. -/
structure Reflects (w : World H) (o : ObjectRef) (id : UInt64) (m : Member) : Prop where
  known : o.index < w.heap.size
  body : (w.object o).body = .member m
  numbers : w.Numbers id m

theorem Develops.numbers (d : w.Develops v) (h : w.Numbers id m) : v.Numbers id m := by
  obtain ⟨b, hb, hm⟩ := h
  obtain ⟨b', hb', d⟩ := d.bridge b hb
  exact ⟨b', hb', d.numbers hm⟩

theorem Assigned.develops (h : w.Assigned c name descriptor isStatic id m) (d : w.Develops v) :
    v.Assigned c name descriptor isStatic id m where
  searchable := d.registry.searchable h.searchable
  resolve := d.registry.resolveMember h.searchable h.resolve
  numbers := d.numbers h.numbers

theorem Reflects.develops (h : w.Reflects o id m) (d : w.Develops v) : v.Reflects o id m where
  known := Nat.lt_of_lt_of_le h.known d.heap.size_le
  body := by
    have hstands : (w.object o).body.StandsIn := by
      rw [h.body]
      trivial
    exact (d.heap.body_eq o h.known hstands).trans h.body
  numbers := d.numbers h.numbers

end World

namespace Interface

open Entry World

section Lookup

variable {call : Invoker H} {s : MemberSort} {mode : FieldMode} {h : Handle} {n d : List UInt8}
  {w v w' : World H} {c : ClassId} {name descriptor : String} {isStatic : Bool} {id id' : UInt64}
  {m : Member}

theorem of_classOf (hc : classOf h w = .ok c v) : v = w ∧ w.namedClass? h = some c := by
  obtain rfl := (Checks.classOf h).cases_ok hc
  cases hnamed : v.namedClass? h with
  | none =>
    obtain ⟨f, hnone⟩ := classOf_none hnamed
    cases hnone.symm.trans hc
  | some c' =>
    cases (classOf_some hnamed).symm.trans hc
    exact ⟨rfl, rfl⟩

theorem of_resolveMember (hm : resolveMember s c name descriptor isStatic w = .ok m v) :
    v = w ∧ w.registry.resolveMember s c name descriptor isStatic = .ok m := by
  cases hr : w.registry.resolveMember s c name descriptor isStatic with
  | error f => cases (guest_ofFault_error (r := fun w : World H => _) hr).symm.trans hm
  | ok m' =>
    cases (guest_ofFault_ok (r := fun w : World H => _) hr).symm.trans hm
    exact ⟨rfl, rfl⟩

theorem of_memberId (hid : memberId m w = .ok id v) :
    ∃ b, w.bridge = some b ∧ id = (b.idFor m).1 ∧ v = { w with bridge := some (b.idFor m).2 } := by
  cases hb : w.bridge with
  | none => cases (onBridge_none hb).symm.trans hid
  | some b =>
    cases (onBridge_ok hb rfl).symm.trans hid
    exact ⟨b, rfl, rfl, rfl⟩

/-- A member that has a number is answered it, and nothing changes. -/
theorem memberId_of_numbers (hm : w.Numbers id m) : memberId m w = .ok id w := by
  obtain ⟨b, hb, hm⟩ := hm
  have hnumber : memberId m w = .ok id { w with bridge := some b } :=
    onBridge_ok hb (by rw [hm.idFor])
  rw [hnumber, withBridge_self hb]

/-- A lookup that succeeds has initialized the class and found the member. -/
theorem of_lookupMember (hid : lookupMember call s mode h (some n) (some d) w = .ok id w') :
    ∃ c v m, w.namedClass? h = some c ∧ Guest.initClass call c w = .ok () v ∧
      v.registry.resolveMember s c (Text.Modified.text n) (Text.Modified.text d) mode.isStatic =
        .ok m ∧ memberId m v = .ok id w' := by
  obtain ⟨c, w₁, hclass, hrest⟩ := Action.of_bind_ok hid
  obtain ⟨rfl, hc⟩ := of_classOf hclass
  obtain ⟨_, v, hinit, hfound⟩ := Action.of_bind_ok hrest
  have hfound : (resolveMember s c (Text.Modified.text n) (Text.Modified.text d) mode.isStatic >>=
      memberId) v = .ok id w' := hfound
  obtain ⟨m, v', hmember, hnumber⟩ := Action.of_bind_ok hfound
  obtain ⟨rfl, hm⟩ := of_resolveMember hmember
  exact ⟨c, _, m, hc, of_guest_ok hinit, hm, hnumber⟩

theorem develops_of_initClass (hcall : CallsKeep Develops call)
    (hinit : Guest.initClass call c w = .ok () v) : w.Develops v := by
  have := develops_neutral.initClass hcall c w
  rwa [hinit] at this

/-- In a state that is well kept, the number that a lookup answers is the member's. -/
theorem assigned_of_lookupMember (hcall : CallsKeep Develops call) (hw : w.WellKept)
    (hid : lookupMember call s mode h (some n) (some d) w = .ok id w') (hfits : w'.NumbersFit) :
    ∃ c m, w.namedClass? h = some c ∧ w'.Ready c ∧ m.sort = s ∧
      w'.Assigned c (Text.Modified.text n) (Text.Modified.text d) mode.isStatic id m := by
  obtain ⟨c, v, m, hc, hinit, hm, hnumber⟩ := of_lookupMember hid
  have hkept := (develops_of_initClass hcall hinit).wellKept hw
  have hsort := Registry.sort_of_findMember? (Registry.resolveMember_eq_ok_iff.1 hm).1
  have hready : v.Ready c := Guest.ready_of_initClass hinit
  obtain ⟨b, hb, rfl, rfl⟩ := of_memberId hnumber
  refine ⟨c, m, hc, hready, hsort, hkept.searchable, hsort ▸ hm, _, rfl, ?_⟩
  exact Bridge.numbers_idFor (hkept.indexed b hb) (hfits _ rfl)

/-- Later lookups of the member are answered the same number, whatever sort of method or field they
ask for. -/
theorem lookupMember_unique (hcall : CallsKeep Develops call)
    (hm : w.Assigned c (Text.Modified.text n) (Text.Modified.text d) isStatic id m)
    (hc : w.namedClass? h = some c)
    (hid : lookupMember call m.sort mode h (some n) (some d) w = .ok id' w') : id' = id := by
  obtain ⟨c', v, m', hc', hinit, hm', hnumber⟩ := of_lookupMember hid
  cases hc.symm.trans hc'
  have hv := hm.develops (develops_of_initClass hcall hinit)
  obtain rfl := (Registry.Extends.refl v.registry).resolveMember_unique hv.searchable hv.resolve hm'
  cases (memberId_of_numbers hv.numbers).symm.trans hnumber
  rfl

/-- A class that is ready is asked for the member without anything else happening. -/
theorem lookupMember_of_ready
    (hm : w.Assigned c (Text.Modified.text n) (Text.Modified.text d) mode.isStatic id m)
    (hc : w.namedClass? h = some c) (hready : w.Ready c) :
    lookupMember call m.sort mode h (some n) (some d) w = .ok id w := by
  have hinit : Guest.initClass call c w = .ok () w := Guest.initClass_of_ready hready
  have hresolve : resolveMember m.sort c (Text.Modified.text n) (Text.Modified.text d)
      mode.isStatic w = .ok m w := guest_ofFault_ok (r := fun w : World H => _) hm.resolve
  rw [lookupMember, Action.bind_ok (classOf_some hc), Action.bind_ok (guest_ok hinit)]
  exact (Action.bind_ok hresolve).trans (memberId_of_numbers hm.numbers)

end Lookup

section Reflection

variable {call : Invoker H} {s : MemberSort} {h g : Handle} {w v w' : World H} {isStatic : Bool}
  {id : UInt64} {m : Member} {o : ObjectRef}

theorem of_member (hm : member s id w = .ok m v) :
    v = w ∧ ∃ b, w.bridge = some b ∧ b.find s id = .ok m := by
  cases hb : w.bridge with
  | none => cases (Action.bind_halt (bridge_none hb)).symm.trans hm
  | some b =>
    have hfind := (Action.bind_ok (bridge_eq hb)).symm.trans hm
    cases hr : b.find s id with
    | error e =>
      rw [hr] at hfind
      cases hfind
    | ok m' =>
      rw [hr] at hfind
      cases hfind
      exact ⟨rfl, b, rfl, hr⟩

theorem of_reflectMember (ho : (Guest.reflectMember m w : Outcome H EntryError _) = .ok o v) :
    ∃ c, w.newObject c (.member m) = (o, v) := by
  cases m <;> cases ho <;> exact ⟨_, rfl⟩

/-- A local reference that was made leads to the object, and nothing but the table of the references
has changed. -/
theorem of_newLocal (hw : w.WellKept) (hg : newLocal (some o) w = .ok g v) :
    v.resolve g = some o ∧ ∃ a, v = w.setAttachment (some a) := by
  cases ha : w.attachment with
  | none => cases (Native.onAttachment_of_none ha _).symm.trans hg
  | some a =>
    cases hroom : a.locals.vacancy? with
    | none =>
      rw [newLocal, Native.onAttachment_eq ha, Locals.create_some, hroom] at hg
      cases hg
    | some vacancy =>
      obtain ⟨g', t, hlocal, -, ho⟩ := newLocal_fills ha (hw.running a ha) (by rw [hroom]; rfl) o
      cases hlocal.symm.trans hg
      exact ⟨ho, _, rfl⟩

/-- An object that is made of a number stands for the member that the number names, and the answer
leads to it. -/
theorem reflects_of_toReflected (hw : w.WellKept)
    (hg : toReflected s h id isStatic w = .ok g w') :
    w'.attachment.isSome = true ∧ ∃ o m, w'.resolve g = some o ∧ m.sort = s ∧
      w'.Reflects o id m := by
  obtain ⟨c, w₁, hclass, hrest⟩ := Action.of_bind_ok hg
  obtain rfl := (Checks.classOf h).cases_ok hclass
  obtain ⟨m, w₂, hmember, hrest₂⟩ := Action.of_bind_ok hrest
  obtain ⟨rfl, b, hb, hm⟩ := of_member hmember
  obtain ⟨_, w₃, howner, hmake⟩ := Action.of_bind_ok
    (f := fun _ => Guest.reflectMember m >>= fun o => newLocal (some o)) hrest₂
  obtain rfl := (Checks.checkOwner _ _ _ _ _).cases_ok howner
  obtain ⟨o, v, hobject, hlocal⟩ := Action.of_bind_ok hmake
  obtain ⟨c, hnew⟩ := of_reflectMember hobject
  cases hnew
  have hmade := w₃.sameSide_newObject c (.member m)
  obtain ⟨ho, a, rfl⟩ := of_newLocal (hmade.develops.wellKept hw) hlocal
  obtain ⟨hsort, hnumber⟩ := Bridge.numbers_of_find (hw.indexed b hb) hm
  refine ⟨rfl, _, m, ho, hsort, ?_, ?_, b, hb, hnumber⟩
  · exact Nat.lt_of_lt_of_eq (Nat.lt_succ_self _) (Heap.size_push _ _).symm
  · exact congrArg Object.body (Heap.get_push_self _ _)

/-- The object is turned into the number, and nothing changes. -/
theorem fromReflected_of_reflects (hm : w.Reflects o id m) (ho : w.resolve h = some o) :
    fromReflected m.sort h w = .ok id w := by
  have hmember : memberOf h m.sort.word w = .ok (o, some m) w := by
    rw [memberOf, Action.bind_ok (require_some ho), Action.bind_ok world_eq, Object.member?, hm.body]
    rfl
  rw [fromReflected, Action.bind_ok hmember]
  exact (congrFun (if_pos rfl) w).trans (memberId_of_numbers hm.numbers)

end Reflection

/-! ## Whole runs -/

section Calls

variable {call : Invoker H} {env : Option Env} {f : Function} {args : List Argument}
  {answer : Answer} {w w' : World H}

/-- A function whose answer is not the one of a failure has answered as it stands. -/
theorem of_callFunction
    (h : (callFunction call env f args w : Outcome H Empty Answer) = .ok answer w')
    (hanswer : answer ≠ .plain f.failure) : perform call f args w = .ok answer w' := by
  obtain ⟨_, v, hcheck, hrun⟩ := Action.of_bind_ok h
  have hchecked : (checkEnv env w : Outcome H Empty Unit).Returns (fun _ v => v = w) :=
    returns_checkEnv env w
  rw [hcheck] at hchecked
  obtain rfl : v = w := hchecked
  cases hbody : perform call f args v with
  | ok a v' =>
    rw [contain, hbody] at hrun
    cases hrun
    rfl
  | error e v' =>
    rw [contain, hbody] at hrun
    obtain ⟨o, v₁, -, hrun⟩ := Action.of_bind_ok hrun
    cases hrun
    exact absurd rfl hanswer
  | panic message v' =>
    rw [contain, hbody] at hrun
    obtain ⟨o, v₁, -, hrun⟩ := Action.of_bind_ok hrun
    cases hrun
    exact absurd rfl hanswer
  | halt reason v' =>
    rw [contain, hbody] at hrun
    cases hrun

theorem of_answerMember {a : Entry H UInt64} {id : UInt64}
    (h : answerMember a w = .ok (.plain (.member id)) w') : a w = .ok id w' := by
  obtain ⟨id', v, ha, h⟩ := Action.of_bind_ok h
  cases h
  exact ha

theorem of_answerHandle {a : Entry H Handle} {g : Handle}
    (h : answerHandle a w = .ok (.plain (.handle g)) w') : a w = .ok g w' := by
  obtain ⟨g', v, ha, h⟩ := Action.of_bind_ok h
  cases h
  exact ha

end Calls

section Runs

variable (native : NativeCode H) (aside : World H → World H → Prop)

/-- However the run goes on, the number stays that of the member that a name and a descriptor stand
for in a class. -/
structure StaysNumber (s : MemberSort) (mode : FieldMode) (c : ClassId) (name descriptor : String)
    (id : UInt64) (w : World H) : Prop where
  ready : w.Ready c
  /-- Whoever asks for the member, on whatever thread and by whatever handle and bytes, is answered
  the same number, if the answer is not that of a failure. -/
  same : ∀ v, Steps (Guest.invoke native) aside w v → ∀ fuel env mode' h n d id' v',
    v.namedClass? h = some c → Text.Modified.text n = name → Text.Modified.text d = descriptor →
    (callFunction (Guest.invoke native fuel) env (s.lookup mode')
      [.handle h, .text (some n), .text (some d)] v : Outcome H Empty Answer) =
        .ok (.plain (.member id')) v' → id' = 0 ∨ id' = id
  /-- While the class is ready, the number is answered and nothing changes. -/
  answered : ∀ v, Steps (Guest.invoke native) aside w v → v.Ready c →
    v.attachment.isSome = true → ∀ fuel h n d,
    v.namedClass? h = some c → Text.Modified.text n = name → Text.Modified.text d = descriptor →
    (callFunction (Guest.invoke native fuel) (ownEnv v) (s.lookup mode)
      [.handle h, .text (some n), .text (some d)] v : Outcome H Empty Answer) =
        .ok (.plain (.member id)) v

/-- However the run goes on, the number is answered for the object, by whatever handle, and nothing
changes. -/
def LeadsBack (s : MemberSort) (id : UInt64) (o : ObjectRef) (w : World H) : Prop :=
  ∀ v, Steps (Guest.invoke native) aside w v → v.attachment.isSome = true → ∀ fuel h,
    v.resolve h = some o →
    (callFunction (Guest.invoke native fuel) (ownEnv v) s.unreflect [.handle h] v :
      Outcome H Empty Answer) = .ok (.plain (.member id)) v

variable {native aside} {maxCallDepth : Nat} {memory : HostMemory} {host : H} {w : World H}

/-- Members are numbered from one upwards, each once and for good.  So over a whole run, whatever
classes and native code there are, a lookup goes on answering what it has answered, and an object
that was made of a number is turned into that number. -/
theorem member_numbers_are_stable (hnative : NativeKeeps Develops native)
    (haside : ∀ {w w'}, aside w w' → w.Develops w')
    (hrun : Steps (Guest.invoke native) aside (World.start maxCallDepth memory host) w) :
    (∀ {α : Type} [DecidableEq α] (sort : String) (ops : List (MemberTable.Op α)),
      (MemberTable.run sort ops).Fits → MemberTable.Numbers sort ops) ∧
    (∀ fuel env s mode h n d id w',
      (callFunction (Guest.invoke native fuel) env (s.lookup mode)
        [.handle h, .text (some n), .text (some d)] w : Outcome H Empty Answer) =
          .ok (.plain (.member id)) w' →
      id ≠ 0 → w'.NumbersFit → ∃ c, w.namedClass? h = some c ∧
        StaysNumber native aside s mode c (Text.Modified.text n) (Text.Modified.text d) id w') ∧
    ∀ fuel env s h id isStatic g w',
      (callFunction (Guest.invoke native fuel) env (s.reflect)
        [.handle h, .member id, .primitive (.boolean isStatic)] w : Outcome H Empty Answer) =
          .ok (.plain (.handle g)) w' →
      g ≠ .null → w'.attachment.isSome = true ∧
        ∃ o, w'.resolve g = some o ∧ LeadsBack native aside s id o w' := by
  have hcalls := develops_invoke hnative
  have hw : w.WellKept := (hrun.develops hnative haside).wellKept (wellKept_start maxCallDepth memory host)
  refine ⟨fun sort ops => MemberTable.numbers_run sort ops, ?_, ?_⟩
  · intro fuel env s mode h n d id w' hid hne hfits
    have hlookup : ∀ {fuel env s mode h n d id} {v v' : World H},
        (callFunction (Guest.invoke native fuel) env (s.lookup mode)
          [.handle h, .text (some n), .text (some d)] v : Outcome H Empty Answer) =
            .ok (.plain (.member id)) v' → id ≠ 0 →
        lookupMember (Guest.invoke native fuel) s mode h (some n) (some d) v = .ok id v' := by
      intro fuel env s mode h n d id v v' hid hne
      have hbody := of_callFunction hid fun heq => hne ?_
      · rw [perform_lookup] at hbody
        exact of_answerMember hbody
      · cases s <;> cases heq <;> rfl
    obtain ⟨c, m, hc, hready, rfl, hm⟩ :=
      assigned_of_lookupMember (hcalls fuel) hw (hlookup hid hne) hfits
    refine ⟨c, hc, hready, ?_, ?_⟩
    · intro v hv fuel env mode' h n' d' id' v' hc hn hd hid'
      rw [← hn, ← hd] at hm
      refine or_iff_not_imp_left.2 fun hne => ?_
      exact lookupMember_unique (hcalls fuel) (hm.develops (hv.develops hnative haside)) hc
        (hlookup hid' hne)
    · intro v hv hready ha fuel h n' d' hc hn hd
      rw [← hn, ← hd] at hm
      refine callFunction_done ha ?_
      rw [perform_lookup]
      exact Action.bind_ok
        (lookupMember_of_ready (hm.develops (hv.develops hnative haside)) hc hready)
  · intro fuel env s h id isStatic g w' hg hne
    have hbody := of_callFunction hg fun heq => hne (by cases s <;> cases heq <;> rfl)
    rw [perform_reflect] at hbody
    obtain ⟨ha, o, m, ho, rfl, hm⟩ := reflects_of_toReflected hw (of_answerHandle hbody)
    refine ⟨ha, o, ho, fun v hv ha fuel h ho => callFunction_done ha ?_⟩
    rw [perform_unreflect]
    exact Action.bind_ok
      (fromReflected_of_reflects (hm.develops (hv.develops hnative haside)) ho)

end Runs

/-! ## A class with a method and a field -/

/-- A class whose objects count. -/
def counter : ClassSpec :=
  ⟨"Counter", .concrete, some "java/lang/Object", [], [⟨"count", "I", false⟩],
    [⟨"add", "(I)I", false, .code (.argument 0)⟩]⟩

/-- Native code that makes no calls. -/
def silent : NativeCode Unit := fun _ _ => pure 0

theorem silent_develops : NativeKeeps Develops silent := fun _ _ =>
  .pure develops_neutral.toComposable 0

/-- The class has been defined, and a thread is attached to a bridge. -/
def counting : World Unit :=
  ((((World.start World.defaultCallDepth .growing ()).defineOrKeep counter).install .default).attach
    (.empty .default)).2

theorem steps_counting : Steps (Guest.invoke silent) Develops
    (World.start World.defaultCallDepth .growing ()) counting := by
  let defined := (World.start World.defaultCallDepth .growing ()).defineOrKeep counter
  have hside := (outerSide_defineOrKeep _ counter).trans (outerSide_start World.defaultCallDepth .growing ())
  have hnone : defined.bridge = none := congrArg (fun side => side.2.2.2.2) hside
  have hinstall := develops_install hnone .default
  have hattach := develops_neutral.attach (defined.install .default) (.empty .default)
  exact .tail (.tail (.single (.defines counter)) (.aside hinstall)) (.aside hattach)

/-- What the attached thread is answered. -/
def consult (f : Function) (args : List Argument) (w : World Unit) : Outcome Unit Empty Answer :=
  callFunction (Guest.invoke silent 1) (ownEnv w) f args w

theorem step_consult {f : Function} {args : List Argument} {answer : Answer} {w w' : World Unit}
    (hs : Shaped f args) (h : consult f args w = .ok answer w') :
    Step (Guest.invoke silent) Develops w w' := by
  refine .asks 1 (ownEnv w) hs ?_
  rw [show (callFunction _ _ f args w : Outcome Unit Empty Answer) = _ from h]
  rfl

/-- A handle that is answered. -/
def handle? : Outcome Unit Empty Answer → Option (Handle × World Unit)
  | .ok ⟨.handle h, false, []⟩ w => some (h, w)
  | _ => none

/-- A number of a member that is answered. -/
def number? : Outcome Unit Empty Answer → Option (UInt64 × World Unit)
  | .ok ⟨.member id, false, []⟩ w => some (id, w)
  | _ => none

theorem of_handle? {o : Outcome Unit Empty Answer} {h : Handle} {w : World Unit}
    (ho : handle? o = some (h, w)) : o = .ok (.plain (.handle h)) w := by
  unfold handle? at ho
  split at ho <;> cases ho
  rfl

theorem of_number? {o : Outcome Unit Empty Answer} {id : UInt64} {w : World Unit}
    (ho : number? o = some (id, w)) : o = .ok (.plain (.member id)) w := by
  unfold number? at ho
  split at ho <;> cases ho
  rfl

def counterName : List UInt8 := [67, 111, 117, 110, 116, 101, 114]

/-- What the lookup of the method is passed. -/
def addArguments (h : Handle) : List Argument :=
  [.handle h, .text (some [97, 100, 100]), .text (some [40, 73, 41, 73])]

/-- The class is asked for, then the number of its method, and then an object is made of it. -/
theorem counter_is_consulted : ∃ h g w₁ w₂ w₃,
    consult .findClass [.text (some counterName)] counting = .ok (.plain (.handle h)) w₁ ∧
    consult (.getMethodId .perObject) (addArguments h) w₁ = .ok (.plain (.member 1)) w₂ ∧
    consult .toReflectedMethod [.handle h, .member 1, .primitive (.boolean false)] w₂ =
      .ok (.plain (.handle g)) w₃ ∧
    g ≠ .null ∧ w₁.namedClass? h = some ⟨28⟩ ∧ w₃.namedClass? h = some ⟨28⟩ ∧ w₃.Ready ⟨28⟩ ∧
    ∀ b, w₂.bridge = some b → b.methods.size = 1 ∧ b.fields.size = 0 := by
  have hrun : ((handle? (consult .findClass [.text (some counterName)] counting)).bind fun (h, w₁) =>
      (number? (consult (.getMethodId .perObject) (addArguments h) w₁)).bind fun (id, w₂) =>
        (handle? (consult .toReflectedMethod [.handle h, .member id, .primitive (.boolean false)]
          w₂)).map fun (g, w₃) =>
            decide (id = 1 ∧ g ≠ .null ∧ w₁.namedClass? h = some ⟨28⟩ ∧
              w₃.namedClass? h = some ⟨28⟩ ∧ w₃.Ready ⟨28⟩ ∧
              ∀ b ∈ w₂.bridge, b.methods.size = 1 ∧ b.fields.size = 0)) = some true := by
    decide +kernel
  obtain ⟨⟨h, w₁⟩, hfind, hrun⟩ := Option.bind_eq_some_iff.1 hrun
  obtain ⟨⟨id, w₂⟩, hnumber, hrun⟩ := Option.bind_eq_some_iff.1 hrun
  obtain ⟨⟨g, w₃⟩, hreflect, hrun⟩ := Option.map_eq_some_iff.1 hrun
  obtain ⟨rfl, hfacts⟩ := of_decide_eq_true hrun
  exact ⟨h, g, w₁, w₂, w₃, of_handle? hfind, of_number? hnumber, of_handle? hreflect, hfacts⟩

/-- The method is numbered, and after an object was made of the number, both lead to it. -/
theorem counter_numbers_are_stable : ∃ h g w₁ w₂ w₃,
    Steps (Guest.invoke silent) Develops (World.start World.defaultCallDepth .growing ()) w₁ ∧
    consult (.getMethodId .perObject) (addArguments h) w₁ = .ok (.plain (.member 1)) w₂ ∧
    consult .toReflectedMethod [.handle h, .member 1, .primitive (.boolean false)] w₂ =
      .ok (.plain (.handle g)) w₃ ∧
    consult (.getMethodId .perObject) (addArguments h) w₃ = .ok (.plain (.member 1)) w₃ ∧
    consult .fromReflectedMethod [.handle g] w₃ = .ok (.plain (.member 1)) w₃ := by
  obtain ⟨h, g, w₁, w₂, w₃, hfind, hnumber, hreflect, hne, hc, hc', hready, hsizes⟩ :=
    counter_is_consulted
  have hsteps : Steps (Guest.invoke silent) Develops (World.start World.defaultCallDepth .growing ()) w₁ :=
    steps_counting.tail (step_consult (.findClass _) hfind)
  have hfits : w₂.NumbersFit := by
    intro b hb
    obtain ⟨hmethods, hfields⟩ := hsizes b hb
    constructor
    · rw [MemberTable.Fits, hmethods]
      decide
    · rw [MemberTable.Fits, hfields]
      decide
  have hstep := step_consult (.getMethodId ..) hnumber
  have hstep' := step_consult (.toReflectedMethod ..) hreflect
  obtain ⟨-, hlookup, -⟩ := member_numbers_are_stable silent_develops id hsteps
  obtain ⟨-, -, hreflected⟩ := member_numbers_are_stable silent_develops id (hsteps.tail hstep)
  obtain ⟨c, hclass, hstays⟩ := hlookup 1 _ .method _ h _ _ 1 w₂ hnumber (by decide) hfits
  cases hc.symm.trans hclass
  obtain ⟨ha, o, ho, hback⟩ := hreflected 1 _ .method h 1 false g w₃ hreflect hne
  exact ⟨h, g, w₁, w₂, w₃, hsteps, hnumber, hreflect,
    hstays.answered w₃ (.single hstep') hready ha 1 h _ _ hc' rfl rfl, hback w₃ .refl ha 1 g ho⟩

end Interface

end GuestBoundary
