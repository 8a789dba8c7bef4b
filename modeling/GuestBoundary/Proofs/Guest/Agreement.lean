import GuestBoundary.Proofs.Guest.Order

/-!
# Guest code in order

Guest code makes its calls in states in order: a check of that in front of every call makes no
difference (`agree_watched`).  Neither does what would happen where calls are nested more deeply
than the state allows, so with fuel for that many nested calls a run is never cut short.
-/

namespace GuestBoundary

variable {H ε δ α β : Type}

namespace Guest

open World

variable {call call' : Invoker H} {native : NativeCode H} {w v : World H} {c s : ClassId}
  {own : Option ClassId} {n depth : Nat}

/-! ## Actions that agree -/

/-- In the state both actions do the same.  The run is not over then, and nothing has begun that has
not ended, unless they panic. -/
structure AgreeAt (w : World H) (a a' : Action H ε α) : Prop where
  same : a w = a' w
  settles : (a w).Settles (Stays w)

/-- The actions agree in states in order with room for so many nested calls. -/
structure Agree (n : Nat) (a a' : Action H ε α) : Prop where
  orderly : Keeps Orderly a
  agree : ∀ w, Within none n w → AgreeAt w a a'

/-- Calls of methods in one way agree with calls in another way. -/
def CallsAgree (n : Nat) (call call' : Invoker H) : Prop :=
  CallsRelated (fun a a' => Agree n a a') call call'

theorem CallsAgree.orderly (h : CallsAgree n call call') : CallsKeep Orderly call :=
  fun m receiver args => (h m receiver args).orderly

section Rules

variable {a a' : Action H ε α} {f f' : α → Action H ε β}

theorem AgreeAt.still (h : Still a) : AgreeAt w a a := ⟨rfl, (h w).2.mono fun _ => SameSide.stays⟩

theorem AgreeAt.bind (ha : AgreeAt w a a')
    (hf : ∀ x w', a w = .ok x w' → Stays w w' → AgreeAt w' (f x) (f' x)) :
    AgreeAt w (a >>= f) (a' >>= f') where
  same := by
    refine Eq.trans (Action.bind_congr_ok fun x w' h => ?_) (Action.bind_congr ha.same)
    have hstays := ha.settles
    rw [h] at hstays
    exact (hf x w' h hstays).same
  settles := ha.settles.bind (fun _ => id) fun x w' h hstays =>
    (hf x w' h hstays).settles.mono fun _ => hstays.trans

/-- After a look at the state, only that state matters. -/
theorem AgreeAt.world_bind {f f' : World H → Action H ε β} (h : AgreeAt w (f w) (f' w)) :
    AgreeAt w (Action.world >>= f) (Action.world >>= f') := ⟨h.same, h.settles⟩

theorem AgreeAt.result (h : AgreeAt w a a') :
    AgreeAt w (a.result : Action H δ (Except ε α)) a'.result :=
  ⟨Action.result_congr h.same, h.settles.result⟩

namespace Agree

theorem still (h : Still a) : Agree n a a := ⟨orderly_neutral.still h, fun _ _ => .still h⟩

theorem bind (ha : Agree n a a') (hf : ∀ x, Agree n (f x) (f' x)) :
    Agree n (a >>= f) (a' >>= f') where
  orderly := .bind orderly_composable ha.orderly fun x => (hf x).orderly
  agree w hw := (ha.agree w hw).bind fun x w' h hstays => by
    -- where the first action answers in order, there is as much room as before
    have honward := leaves_of_keeps_orderly ha.orderly hw.toPlain
    rw [h] at honward
    exact (hf x).agree w' (hw.onward honward hstays)

theorem result (h : Agree n a a') : Agree n (a.result : Action H δ (Except ε α)) a'.result :=
  ⟨h.orderly.result, fun w hw => (h.agree w hw).result⟩

theorem holding (objects : List ObjectRef) (h : Agree n a a') :
    Agree n (Action.holding objects a) (Action.holding objects a') where
  orderly := orderly_neutral.holding objects h.orderly
  agree w hw := by
    have hinside := h.agree _ (hw.holding objects)
    refine ⟨Action.holding_congr hinside.same, .andFinally (hinside.settles.mono fun _ hs => ?_)⟩
    exact ⟨hs.running, hs.depth, hs.limit⟩

/-- One more call leaves room for one less. -/
theorem inCall (h : Agree n a a') : Agree (n + 1) (Guest.inCall a) (Guest.inCall a') where
  orderly := orderly_neutral.oneMore h.orderly
  agree w hw := by
    have hinside := h.agree _ hw.deeper
    refine ⟨Action.andFinally_congr hinside.same, .andFinally (hinside.settles.mono fun _ hs => ?_)⟩
    exact ⟨hs.running, congrArg (· - 1) hs.depth, hs.limit⟩

end Agree

end Rules

/-! ## Initialization -/

/-- The call that claims a class settles it. -/
theorem settles_noteInit {result : Except ObjectRef Unit}
    (h : Stays (w.setInit c (.running w.thread.id)) v) :
    (noteInit c result v).Settles (Stays w) := by
  cases result with
  | ok _ => exact h.settle (.inl rfl)
  | error thrown => exact h.settle (.inr rfl)

section Initialization

variable (hcall : CallsAgree n call call')
include hcall

theorem agree_runInitializer (h : Underway c 0 w v) (hv : Within none n v)
    (hcount : w.started.count c = 0) (r : Registry) :
    AgreeAt v (runInitializer call r c) (runInitializer call' r c) := by
  unfold runInitializer
  cases r.initializer? c with
  | none => exact .still (.pure ())
  | some m =>
    have hrunning : (v.classState c).init = .running v.thread.id := by
      rw [h.running, h.onward.thread]
    have hstart : Within none n (v.noteStart c) :=
      ⟨InOrderBut.start hv.toInOrderBut hrunning (by rw [h.count, hcount]), hv.room⟩
    have hagree : Agree n (discard (call m none [])) (discard (call' m none [])) :=
      (hcall m none []).bind fun _ => .still (.pure ())
    have hstarted := hagree.agree _ hstart
    refine ⟨hstarted.same, hstarted.settles.mono fun _ hs => ?_⟩
    exact ⟨hs.running, hs.depth, hs.limit⟩

theorem agree_runInitializers (hclaim : Underway c 0 w v) (hv : Within (some c) n v)
    (hcount : w.started.count c = 0) (hknown : c.index < v.registry.size)
    (hdepth : c.index ≤ depth)
    (hsuper : ∀ s, (v.registry.get c).superclass = some s →
      AgreeAt v (initClassWithin call depth s) (initClassWithin call' depth s)) :
    AgreeAt v (runInitializers call v.registry depth c)
      (runInitializers call' v.registry depth c) := by
  cases hs : (v.registry.get c).superclass with
  | none =>
    unfold runInitializers
    rw [hs]
    refine agree_runInitializer hcall hclaim ⟨hv.toInOrderBut.backed_own fun s h => ?_, hv.room⟩
      hcount _
    rw [hs] at h
    cases h
  | some s =>
    obtain ⟨depth, rfl⟩ : ∃ n, depth = n + 1 := ⟨depth - 1, by have := hv.ranked c s hs; omega⟩
    rw [runInitializers_of_superclass hs, runInitializers_of_superclass hs]
    refine (hsuper s hs).bind fun _ v' h hstays => ?_
    -- where the superclass has answered, the class is behind a superclass that is ready
    have honward : (initClassWithin call (depth + 1) s v).Leaves (Onward none v) :=
      leaves_initClassWithin hcall.orderly hv.toPlain
    rw [h] at honward
    have hafter := hv.onward honward hstays
    refine agree_runInitializer hcall (hclaim.step honward)
      ⟨hafter.toInOrderBut.backed_own fun s' hs' => ?_, hafter.room⟩ hcount _
    rw [honward.registry.get_eq c hknown, hs] at hs'
    cases hs'
    exact ready_of_initClassWithin h

/-- Initialization is in order wherever it starts initializers, although a class may be claimed
before its superclass is ready. -/
theorem agree_initClassWithin (hw : Within own n w)
    (hown : ∀ p, own = some p → (w.registry.get p).superclass = some c) (hdepth : c.index < depth) :
    AgreeAt w (initClassWithin call depth c) (initClassWithin call' depth c) := by
  induction depth generalizing c w own with
  | zero => omega
  | succ depth ih =>
    suffices initClassWithin call (depth + 1) c w = initClassWithin call' (depth + 1) c w ∧
        (initClassWithin call (depth + 1) c w).Settles (Stays w) from ⟨this.1, this.2⟩
    rw [initClassWithin_succ, initClassWithin_succ]
    cases hinit : (w.classState c).init with
    | done => exact ⟨rfl, .refl w⟩
    | running t =>
      dsimp only
      rw [if_pos (hw.alone c t hinit)]
      exact ⟨rfl, .refl w⟩
    | failed => exact ⟨rfl, (AgreeAt.still (Plain.throwFault _).still).settles⟩
    | untouched =>
      have hknown : c.index < w.registry.size := hw.toPlain.lt_size (by rw [hinit]; nofun)
      have hcount : w.started.count c = 0 := List.count_eq_zero.2 fun hc => hw.claimed c hc hinit
      have hclaimed : Within (some c) n (w.setInit c (.running w.thread.id)) :=
        ⟨hw.toInOrderBut.claim hown hinit, hw.room⟩
      have hsuper : ∀ s, (w.registry.get c).superclass = some s →
          AgreeAt (w.setInit c (.running w.thread.id)) (initClassWithin call depth s)
            (initClassWithin call' depth s) := by
        intro s hs
        have hlt : s.index < depth :=
          Nat.lt_of_lt_of_le (hw.ranked c s hs) (Nat.le_of_lt_succ hdepth)
        exact ih hclaimed (fun p hp => Option.some.inj hp ▸ hs) hlt
      have hrun := agree_runInitializers hcall (.claim hw.toPlain hinit) hclaimed hcount hknown
        (Nat.le_of_lt_succ hdepth) hsuper
      refine ⟨Action.bind_congr (Action.result_congr hrun.same), ?_⟩
      exact hrun.settles.result_bind fun _ _ h => settles_noteInit h

theorem agree_initClass (c : ClassId) : Agree n (initClass call c) (initClass call' c) where
  orderly := orderly_neutral.initClass hcall.orderly c
  agree _ hw := agree_initClassWithin hcall hw nofun (Nat.lt_succ_self _)

end Initialization

/-! ## Guest code -/

/-- Guest code agrees with guest code whose calls agree with its calls. -/
theorem agree_congruence (n : Nat) : GuestCongruence (H := H) fun a a' => Agree n a a' where
  plain h := Agree.still h.still
  bind := Agree.bind
  holding := Agree.holding
  initClass := agree_initClass
  fail o := Agree.still (.fail o)
  panic m := Agree.still (.panic m)
  result := Agree.result

/-- Native methods cannot be linked, however calls are run. -/
theorem agree_nativeInvoke (native : NativeCode H) (call call' : Invoker H) :
    CallsAgree n (Native.invoke native call) (Native.invoke native call') := by
  intro m receiver args
  refine ⟨orderly_nativeInvoke native call m receiver args, fun w hw => ?_⟩
  obtain ⟨f, hf⟩ := nativeInvoke_of_unbridged native m receiver args hw.unbridged
  refine ⟨by rw [hf, hf], ?_⟩
  rw [hf]
  exact (AgreeAt.still (Plain.throwFault f).still).settles

/-- One call agrees with one call, if the calls nested in them agree where there is room for them.
Where there is none, the call is refused. -/
theorem agree_invokeWith (horderly : CallsKeep Orderly call)
    (hcall : ∀ k, n = k + 1 → CallsAgree k call call') :
    CallsAgree n (invokeWith native call) (invokeWith native call') := by
  intro m receiver args
  refine ⟨orderly_neutral.invokeWith receiver args horderly (orderly_nativeInvoke native call) m,
    fun w hw => ?_⟩
  refine .world_bind ?_
  dsimp only
  split
  case isTrue => exact .still (Plain.throwFault _).still
  case isFalse hroom =>
    obtain ⟨k, rfl⟩ : ∃ k, n = k + 1 := ⟨n - 1, by have := hw.room; omega⟩
    have kc := agree_congruence (H := H) k
    refine Agree.agree (.holding _ (.inCall ?_)) w hw
    split
    · refine (kc.checkReceiver (hcall k rfl) m receiver).bind fun _ => ?_
      exact kc.runBody receiver args (hcall k rfl) (agree_nativeInvoke native call call') m
    · exact .still (Plain.throwFault _).still

/-- Calls methods with a check of the state in front of every call.  Something else happens where
the check fails, and where calls are nested more than `fuel` deep. -/
def watched (native : NativeCode H) (p : World H → Prop) [DecidablePred p] (other : Invoker H) :
    Nat → Invoker H
  | 0 => other
  | fuel + 1 => fun m receiver args =>
    Action.provided p (invokeWith native (watched native p other fuel) m receiver args)
      (other m receiver args)

/-- Every call is made in a state in order, however deeply it is nested, and it is not nested more
deeply than there is room for. -/
theorem agree_watched {p : World H → Prop} [DecidablePred p] (hp : ∀ w : World H, w.InOrder → p w)
    (other : Invoker H) {fuel : Nat} (hfuel : n < fuel) :
    CallsAgree n (invoke native fuel) (watched native p other fuel) := by
  induction fuel generalizing n with
  | zero => omega
  | succ fuel ih =>
    intro m receiver args
    have hnested : ∀ k, n = k + 1 →
        CallsAgree k (invoke native fuel) (watched native p other fuel) := fun k hk => ih (by omega)
    have hagree : Agree n (invokeWith native (invoke native fuel) m receiver args) _ :=
      agree_invokeWith (orderly_invoke native fuel) hnested m receiver args
    refine ⟨hagree.orderly, fun w hw => ⟨?_, (hagree.agree w hw).settles⟩⟩
    exact (hagree.agree w hw).same.trans (Action.provided_pos (hp w hw.toInOrderBut)).symm

end Guest

end GuestBoundary
