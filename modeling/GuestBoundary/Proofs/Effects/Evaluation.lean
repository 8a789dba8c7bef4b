import GuestBoundary.Proofs.Effects.Endings
import GuestBoundary.Proofs.Effects.Guest

/-!
# Evaluation, whatever calls do

Guest code with its calls run in one way is compared with the same guest code with its calls run in
another way.  `GuestRules` are rules for a relation between actions that go through the making of
objects; a `GuestCongruence` goes through everything that guest code is made of: one lemma for each
function says that it relates what the function does with related calls.  What guest code keeps is
the case where the second action is not looked at: guest code keeps a `GuestNeutral` relation if the
calls that it makes do, and a relation that does not see how far classes are, a `ProgressNeutral`
one, need not care about initialization.
-/

namespace GuestBoundary

variable {H ε α : Type}

/-- Calls of methods in one way are related to calls in another way. -/
def CallsRelated (K : ∀ {α : Type}, Guest H α → Guest H α → Prop) (call call' : Invoker H) : Prop :=
  ∀ m receiver args, K (call m receiver args) (call' m receiver args)

/-- A relation between actions that holds between what runs without a call and itself, and between
what is made of related actions in the same way. -/
structure GuestRules (K : ∀ {α : Type}, Guest H α → Guest H α → Prop) : Prop where
  plain : ∀ {α : Type} {a : Guest H α}, Plain a → K a a
  bind : ∀ {α β : Type} {a a' : Guest H α} {f f' : α → Guest H β}, K a a' →
    (∀ x, K (f x) (f' x)) → K (a >>= f) (a' >>= f')
  holding : ∀ {α : Type} {a a' : Guest H α} (objects : List ObjectRef), K a a' →
    K (Action.holding objects a) (Action.holding objects a')
  initClass : ∀ {call call' : Invoker H}, CallsRelated K call call' →
    ∀ c, K (Guest.initClass call c) (Guest.initClass call' c)

/-- A relation that goes through everything that guest code is made of. -/
structure GuestCongruence (K : ∀ {α : Type}, Guest H α → Guest H α → Prop) : Prop
    extends GuestRules K where
  fail : ∀ {α : Type} (o : ObjectRef), K (Action.fail o : Guest H α) (Action.fail o)
  panic : ∀ {α : Type} (m : Option String), K (Action.panic m : Guest H α) (Action.panic m)
  result : ∀ {α : Type} {a a' : Guest H α}, K a a' →
    K (a.result : Guest H (Except ObjectRef α)) a'.result

namespace GuestRules

variable {K : ∀ {α : Type}, Guest H α → Guest H α → Prop} (k : GuestRules K)
  {call call' : Invoker H}
include k

/-! ## Objects -/

theorem discardCall (hcall : CallsRelated K call call') (m : MethodRef)
    (receiver : Option ObjectRef) (args : List Value) :
    K (discard (call m receiver args)) (discard (call' m receiver args)) :=
  k.bind (hcall m receiver args) fun _ => k.plain (.pure ())

theorem allocate (hcall : CallsRelated K call call') (c : ClassId) :
    K (Guest.allocate call c) (Guest.allocate call' c) := by
  unfold Guest.allocate
  refine k.bind (k.plain .world) fun w => ?_
  split
  · exact k.bind (k.initClass hcall c) fun _ => k.plain (.newObject _ _)
  · exact k.plain (.throwFault _)

theorem constructWith (hcall : CallsRelated K call call') (c : ClassId) (constructor : MethodRef)
    (args : List Value) :
    K (Guest.constructWith call c constructor args)
      (Guest.constructWith call' c constructor args) := by
  refine k.holding _ (k.bind (k.allocate hcall c) fun o => ?_)
  exact k.bind (k.holding _ (k.discardCall hcall ..)) fun _ => k.plain (.pure o)

theorem construct (hcall : CallsRelated K call call') (c : ClassId) (descriptor : String)
    (args : List Value) :
    K (Guest.construct call c descriptor args) (Guest.construct call' c descriptor args) :=
  k.bind (k.plain (.resolveMethod _ _ _ _)) fun m => k.constructWith hcall c m args

theorem newThrowable (hcall : CallsRelated K call call') (c : ClassId) (message : Option String) :
    K (Guest.newThrowable call c message) (Guest.newThrowable call' c message) := by
  unfold Guest.newThrowable
  refine k.bind (k.plain .world) fun w => ?_
  split
  · cases message with
    | none => exact k.bind (k.plain (.pure _)) fun v => k.construct hcall c _ _
    | some text =>
      refine k.bind (k.plain (.newString _)) fun o => ?_
      exact k.bind (k.plain (.pure _)) fun v => k.construct hcall c _ _
  · exact k.plain (.throwFault _)

theorem checkReceiver (hcall : CallsRelated K call call') (m : MethodRef)
    (receiver : Option ObjectRef) :
    K (Guest.checkReceiver call m receiver) (Guest.checkReceiver call' m receiver) := by
  refine k.bind (k.plain (.read _)) fun method => ?_
  split
  · exact k.initClass hcall _
  · split
    · exact k.plain (.pure ())
    · exact k.plain (.throwFault _)

theorem runIntrinsic (receiver : Option ObjectRef) (args : List Value) (what : Intrinsic) :
    K (Guest.runIntrinsic receiver args what) (Guest.runIntrinsic receiver args what) := by
  cases what with
  | nothing => exact k.plain (.pure _)
  | identity => exact k.plain (.pure _)
  | same => exact k.plain (.pure _)
  | length => exact k.plain (.read _)
  | setMessage =>
    unfold Guest.runIntrinsic
    dsimp only
    split
    · refine k.bind (k.plain (.update fun w => w.sameSide_setMessage _ _)) fun _ => ?_
      exact k.plain (.pure _)
    · exact k.plain (.pure _)
  | message => exact k.plain (.read _)
  | report =>
    unfold Guest.runIntrinsic
    dsimp only
    split
    · refine k.bind (k.plain (.update fun _ => ?_)) fun _ => k.plain (.pure _)
      exact .of_eq rfl (.of_eq rfl) (.refl _)
    · exact k.plain (.pure _)

end GuestRules

namespace GuestCongruence

variable {K : ∀ {α : Type}, Guest H α → Guest H α → Prop} (k : GuestCongruence K)
  {call call' : Invoker H}
include k

/-! ## Evaluation -/

theorem callStatic (hcall : CallsRelated K call call') (owner name descriptor : String)
    (args : List Value) :
    K (Guest.callStatic call owner name descriptor args)
      (Guest.callStatic call' owner name descriptor args) :=
  k.bind (k.plain (.findClass _)) fun _ => k.bind (k.plain (.resolveMethod _ _ _ _)) fun m =>
    hcall m none args

theorem callVirtual (hcall : CallsRelated K call call') (m : MethodRef) (receiver : ObjectRef)
    (args : List Value) :
    K (Guest.callVirtual call m receiver args) (Guest.callVirtual call' m receiver args) :=
  k.bind (k.plain (.dispatch _ _)) fun m => hcall m _ args

theorem staticField (hcall : CallsRelated K call call') (owner name descriptor : String) :
    K (Guest.staticField call owner name descriptor)
      (Guest.staticField call' owner name descriptor) :=
  k.bind (k.plain (.findClass _)) fun _ => k.bind (k.plain (.resolveField _ _ _ _)) fun f =>
    k.bind (k.initClass hcall _) fun _ => k.plain (.pure f)

variable (receiver : Option ObjectRef) (args : List Value)

mutual

theorem evaluate (hcall : CallsRelated K call call') (e : Expr) :
    K (Guest.evaluate call receiver args e) (Guest.evaluate call' receiver args e) := by
  cases e with
  | value v =>
    simp only [Guest.evaluate]
    exact k.plain (.pure v)
  | named name =>
    simp only [Guest.evaluate]
    exact k.plain (.read _)
  | string units =>
    simp only [Guest.evaluate]
    exact k.bind (k.plain (.newString units)) fun o => k.plain (.pure _)
  | argument i =>
    simp only [Guest.evaluate]
    exact k.plain (.pure _)
  | this =>
    simp only [Guest.evaluate]
    exact k.plain (.pure _)
  | sequence parts =>
    simp only [Guest.evaluate]
    exact k.bind (evaluateAll hcall parts) fun vs => k.plain (.pure _)
  | trace text =>
    simp only [Guest.evaluate]
    refine k.bind (k.plain (.update fun _ => ?_)) fun _ => k.plain (.pure _)
    exact .of_eq rfl (.of_eq rfl) (.refl _)
  | add left right =>
    simp only [Guest.evaluate]
    refine k.bind (evaluate hcall left) fun a => k.bind (evaluate hcall right) fun b => ?_
    exact k.plain (.pure _)
  | ifLess left right yes no =>
    simp only [Guest.evaluate]
    refine k.bind (evaluate hcall left) fun a => k.bind (evaluate hcall right) fun b => ?_
    split
    · exact evaluate hcall yes
    · exact evaluate hcall no
  | attempt body handler =>
    simp only [Guest.evaluate]
    refine k.bind (k.result (evaluate hcall body)) fun r => ?_
    cases r with
    | ok v => exact k.plain (.pure v)
    | error thrown => exact k.holding _ (evaluate hcall handler)
  | getField name descriptor =>
    simp only [Guest.evaluate]
    split
    · exact k.plain (.pure _)
    · refine k.bind (k.plain (.read _)) fun c => ?_
      refine k.bind (k.plain (.resolveField _ _ _ _)) fun f => ?_
      exact k.plain (.read _)
  | putField name descriptor value =>
    have hvalue := evaluate hcall value
    simp only [Guest.evaluate]
    split
    · exact k.plain (.pure _)
    · refine k.bind (k.plain (.read _)) fun c => ?_
      refine k.bind (k.plain (.resolveField _ _ _ _)) fun f => ?_
      refine k.bind hvalue fun v => ?_
      refine k.bind (k.plain (.update fun w => ?_)) fun _ => k.plain (.pure _)
      exact World.sameSide_getD (.refl w) fun _ => World.sameSide_setField?
  | getStatic owner name descriptor =>
    simp only [Guest.evaluate]
    exact k.bind (k.staticField hcall _ _ _) fun f => k.plain (.read _)
  | putStatic owner name descriptor value =>
    simp only [Guest.evaluate]
    refine k.bind (k.staticField hcall _ _ _) fun f => k.bind (evaluate hcall value) fun v => ?_
    refine k.bind (k.plain (.update fun w => ?_)) fun _ => k.plain (.pure _)
    exact World.sameSide_getD (.refl w) fun _ => World.sameSide_setStatic?
  | callStatic owner name descriptor arguments =>
    simp only [Guest.evaluate]
    exact k.bind (evaluateAll hcall arguments) fun vs => k.callStatic hcall _ _ _ vs
  | callVirtual target name descriptor arguments =>
    simp only [Guest.evaluate]
    refine k.bind (evaluate hcall target) fun t => ?_
    refine k.bind (k.holding _ (evaluateAll hcall arguments)) fun vs => ?_
    split
    · exact k.plain (.pure _)
    · refine k.bind (k.plain (.read _)) fun c => ?_
      exact k.bind (k.plain (.resolveMethod _ _ _ _)) fun m => k.callVirtual hcall m _ vs
  | callSpecial owner name descriptor arguments =>
    simp only [Guest.evaluate]
    refine k.bind (k.plain (.findClass _)) fun c => ?_
    refine k.bind (k.plain (.resolveMethod _ _ _ _)) fun m => ?_
    exact k.bind (evaluateAll hcall arguments) fun vs => hcall m receiver vs
  | new owner descriptor arguments =>
    simp only [Guest.evaluate]
    refine k.bind (k.plain (.findClass _)) fun c => ?_
    refine k.bind (evaluateAll hcall arguments) fun vs => ?_
    exact k.bind (k.construct hcall c _ vs) fun o => k.plain (.pure _)
  | throwFault kind message =>
    simp only [Guest.evaluate]
    exact k.plain (.throwFault _)
  | throwNew owner message =>
    simp only [Guest.evaluate]
    refine k.bind (k.plain (.findClass _)) fun c => ?_
    exact k.bind (k.newThrowable hcall c _) fun o => k.fail o
  | throwObject value =>
    simp only [Guest.evaluate]
    refine k.bind (evaluate hcall value) fun v => ?_
    split
    · exact k.fail _
    · exact k.plain (.pure _)
  | panic message =>
    simp only [Guest.evaluate]
    exact k.panic message

theorem evaluateAll (hcall : CallsRelated K call call') (es : List Expr) :
    K (Guest.evaluateAll call receiver args es) (Guest.evaluateAll call' receiver args es) := by
  cases es with
  | nil =>
    simp only [Guest.evaluateAll]
    exact k.plain (.pure [])
  | cons e es =>
    simp only [Guest.evaluateAll]
    refine k.bind (evaluate hcall e) fun v => ?_
    exact k.bind (k.holding _ (evaluateAll hcall es)) fun vs => k.plain (.pure _)

end

theorem runBody {native : NativeCode H} (hcall : CallsRelated K call call')
    (hnative : CallsRelated K (Native.invoke native call) (Native.invoke native call'))
    (m : MethodRef) : K (Guest.runBody native call m receiver args)
      (Guest.runBody native call' m receiver args) := by
  refine k.bind (k.plain (.read _)) fun r => ?_
  split
  · exact k.evaluate receiver args hcall _
  · exact k.runIntrinsic receiver args _
  · exact hnative m receiver args
  · exact k.plain (.throwFault _)

end GuestCongruence

/-! ## What guest code keeps -/

theorem CallsKeep.related {R : World H → World H → Prop} {call : Invoker H}
    (hcall : CallsKeep R call) : CallsRelated (fun a _ => Keeps R a) call call := hcall

namespace GuestNeutral

variable {R : World H → World H → Prop} (n : GuestNeutral R)
include n

/-- Where a relation is kept does not depend on what the second action does. -/
theorem congruence : GuestCongruence (H := H) fun a _ => Keeps R a where
  plain h := n.still h.still
  bind := .bind n.toComposable
  holding := n.holding
  initClass hcall := n.initClass hcall
  fail o := .fail n.toComposable o
  panic m := n.still (.panic m)
  result := .result

end GuestNeutral

/-- A call keeps the relation if the calls nested in it do and native methods do. -/
theorem CallNeutral.invokeWith {R : World H → World H → Prop} (n : CallNeutral R)
    {call : Invoker H} {native : NativeCode H} (receiver : Option ObjectRef) (args : List Value)
    (hcall : CallsKeep R call) (hnative : CallsKeep R (Native.invoke native call)) (m : MethodRef) :
    Keeps R (Guest.invokeWith native call m receiver args) := by
  have p := n.toComposable
  refine (Keeps.world p).bind p fun w => ?_
  split
  · exact n.throwFault _
  · refine n.holding _ (n.oneMore ?_)
    split
    · refine (n.congruence.checkReceiver hcall.related m receiver).bind p fun _ => ?_
      exact n.congruence.runBody receiver args hcall.related hnative.related m
    · exact n.throwFault _

/-! ## Relations that do not see classes -/

/-- Calls end as the relations say. -/
def CallsFinish (R Q : World H → World H → Prop) (call : Invoker H) : Prop :=
  ∀ m receiver args, Finishes R Q (call m receiver args)

section

variable {R Q : World H → World H → Prop} {call : Invoker H}

theorem CallsKeep.finish (h : CallsKeep R call) : CallsFinish R (fun _ _ => True) call :=
  fun m receiver args => finishes_true_iff.2 (h m receiver args)

theorem CallsFinish.related (h : CallsFinish R Q call) :
    CallsRelated (fun a _ => Finishes R Q a) call call := h

theorem CallsFinish.keep (h : CallsFinish R Q call) : CallsKeep R call :=
  fun m receiver args w => (h m receiver args w).leaves

end

/-- The relation sees neither what guest code does on its own nor how far classes are
initialized. -/
structure ProgressNeutral (R : World H → World H → Prop) : Prop extends Composable R where
  sameSide : ∀ {w w'}, World.SameSide w w' → R w w'
  setInit : ∀ w c init, R w (w.setInit c init)
  noteStart : ∀ w c, R w (w.noteStart c)

namespace ProgressNeutral

variable {R : World H → World H → Prop} (n : ProgressNeutral R)
include n

/-- A class is initialized in steps that the relation does not see, and by calls. -/
theorem finishes_initClassWithin {Q : World H → World H → Prop} (p : Composes R Q)
    {call : Invoker H} (hcall : CallsFinish R Q call) (depth : Nat) (c : ClassId) :
    Finishes R Q (Guest.initClassWithin call depth c) := by
  have hfault : ∀ f, Finishes R Q (Guest.throwFault f : Guest H Unit) := fun f w =>
    n.sameSide (w.sameSide_materialize f)
  have hset : ∀ c (init : World H → InitState),
      Finishes R Q (Action.update fun w => w.setInit c (init w) : Guest H Unit) :=
    fun c init => .update fun w => n.setInit w c _
  have hstart : ∀ c m, Finishes R Q (do
      Action.update fun w => w.noteStart c
      discard (call m none [])) := fun c m =>
    Finishes.bind p (.update fun w => n.noteStart w c) fun _ => .discard p (hcall _ _ _)
  induction depth generalizing c with
  | zero => exact .pure p ()
  | succ depth ih =>
    unfold Guest.initClassWithin
    refine Finishes.bind p (.world p) fun w => ?_
    split
    · exact .pure p ()
    · split
      · exact .pure p ()
      · exact .halt p _
    · exact hfault _
    · refine Finishes.bind p (hset c _) fun _ => ?_
      refine Finishes.bind p (Finishes.result ?_) fun r => ?_
      · dsimp only
        split
        · refine Finishes.bind p (ih _) fun _ => ?_
          split
          · exact hstart c _
          · exact .pure p ()
        · split
          · exact hstart c _
          · exact .pure p ()
      · split
        · exact hset c _
        · exact Finishes.bind p (hset c _) fun _ => .fail p _

theorem initClassWithin {call : Invoker H} (hcall : CallsKeep R call) (depth : Nat) (c : ClassId) :
    Keeps R (Guest.initClassWithin call depth c) :=
  finishes_true_iff.1 (n.finishes_initClassWithin n.toComposable.composes_true hcall.finish depth c)

theorem guestNeutral : GuestNeutral R where
  toComposable := n.toComposable
  sameSide := n.sameSide
  initClass hcall c := n.initClassWithin hcall _ c

end ProgressNeutral

/-- The relation sees nothing outside the running thread and the host. -/
structure SideNeutral (R : World H → World H → Prop) : Prop extends Composable R where
  elsewhere : ∀ {w w'}, w'.thread = w.thread → w'.host = w.host → R w w'
  inCall : ∀ {w w'}, R (w.setDepth (w.thread.depth + 1)) w' →
    R w (w'.setDepth (w'.thread.depth - 1))

theorem SideNeutral.progressNeutral {R : World H → World H → Prop} (n : SideNeutral R) :
    ProgressNeutral R where
  toComposable := n.toComposable
  sameSide h := n.elsewhere h.thread h.host
  setInit _ _ _ := n.elsewhere rfl rfl
  noteStart _ _ := n.elsewhere rfl rfl

theorem SideNeutral.callNeutral {R : World H → World H → Prop} (n : SideNeutral R) :
    CallNeutral R where
  toGuestNeutral := n.progressNeutral.guestNeutral
  inCall := n.inCall

end GuestBoundary
