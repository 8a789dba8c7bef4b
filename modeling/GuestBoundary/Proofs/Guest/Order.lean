import GuestBoundary.Proofs.Guest.Readiness

/-!
# States in order

A state is in order when no native code can run, every initializer was started once at most, and
the classes in progress are those of the running thread, each behind a superclass that is ready.  A
run starts like that (`within_start`), classes may be defined (`InOrderBut.follows_define`), and
where guest code ends what it began the state is in order again (`InOrderBut.onward`).  While a
class is claimed and its superclass is not ready yet, `InOrderBut` tells which one it is.
-/

namespace GuestBoundary

variable {H : Type}

open InitState (Moves)

namespace World

variable {w w' w'' v : World H} {c d s : ClassId} {own : Option ClassId} {n : Nat}

/-! ## States in order -/

/-- The state is in order, except that the superclass of one class in progress may not be ready. -/
structure InOrderBut (own : Option ClassId) (w : World H) : Prop extends Plain w where
  basic : Registry.basic.Extends w.registry
  once : ∀ c, w.started.count c ≤ 1
  claimed : ∀ c ∈ w.started, (w.classState c).init ≠ .untouched
  known : ∀ c ∈ w.started, c.index < w.registry.size
  alone : ∀ c t, (w.classState c).init = .running t → t = w.thread.id
  backed : ∀ c t, own ≠ some c → (w.classState c).init = .running t →
    ∀ s ∈ (w.registry.get c).superclass, w.Ready s

/-- No native code can run, the basic classes are there, every initializer was started once at most,
of a class that is there and has been claimed, and the classes in progress are those of the running
thread, behind superclasses that are ready. -/
abbrev InOrder (w : World H) : Prop := InOrderBut none w

/-- Nothing has begun in between that has not ended. -/
structure Stays (w w' : World H) : Prop where
  running : ∀ c t, (w'.classState c).init = .running t → (w.classState c).init = .running t
  depth : w'.thread.depth = w.thread.depth
  limit : w'.maxCallDepth = w.maxCallDepth

theorem Stays.refl (w : World H) : Stays w w := ⟨fun _ _ => id, rfl, rfl⟩

theorem Stays.trans (h : Stays w w') (h' : Stays w' w'') : Stays w w'' :=
  ⟨fun c t hc => h.running c t (h'.running c t hc), h'.depth.trans h.depth,
    h'.limit.trans h.limit⟩

theorem SameSide.stays (h : SameSide w w') : Stays w w' where
  running c _ hc := (h.classes.init c).symm.trans hc
  depth := congrArg Thread.depth h.thread
  limit := h.limit

/-- What is ready stays ready. -/
theorem Onward.ready (h : Onward none w w') (hs : w.Ready s) : w'.Ready s := by
  rcases hs with hdone | hrunning
  · exact .inl ((h.moves s).eq_of_ended (.inl hdone) ▸ hdone)
  · exact .inr ((h.running s _ nofun hrunning).trans (by rw [h.thread]))

theorem InOrderBut.known_of_running (h : InOrderBut own w) {t : ThreadId}
    (hc : (w.classState c).init = .running t) : c.index < w.registry.size :=
  h.toPlain.lt_size (by rw [hc]; nofun)

theorem InOrderBut.onward (h : InOrderBut own w) (ho : Onward none w w')
    (hrunning : ∀ c t, (w'.classState c).init = .running t → (w.classState c).init = .running t) :
    InOrderBut own w' where
  toPlain := ho.plain
  basic := h.basic.trans ho.registry
  once c := by
    rcases ho.started c nofun with hs | ⟨hfrom, -, hs⟩
    · rw [hs]
      exact h.once c
    · have hcount : w.started.count c = 0 := List.count_eq_zero.2 fun hc => h.claimed c hc hfrom
      omega
  claimed c hc hto := by
    have hfrom : (w.classState c).init = .untouched := (hto ▸ ho.moves c).eq_untouched
    rcases ho.started c nofun with hs | ⟨-, hne, -⟩
    · rw [← List.count_pos_iff, hs, List.count_pos_iff] at hc
      exact h.claimed c hc hfrom
    · exact hne hto
  known c hc := by
    rcases ho.started c nofun with hs | ⟨hfrom, -, -⟩
    · rw [← List.count_pos_iff, hs, List.count_pos_iff] at hc
      exact Nat.lt_of_lt_of_le (h.known c hc) ho.registry.size_le
    · have hlt : c.index < w.registry.size := h.toPlain.lt_size (by rw [hfrom]; nofun)
      exact Nat.lt_of_lt_of_le hlt ho.registry.size_le
  alone c t hc := (h.alone c t (hrunning c t hc)).trans ho.thread.symm
  backed c t hown hc s hs := by
    have hbefore := hrunning c t hc
    rw [ho.registry.get_eq c (h.known_of_running hbefore)] at hs
    exact ho.ready (h.backed c t hown hbefore s hs)

theorem SameClasses.inOrderBut (h : SameClasses w w') (hthread : w'.thread.id = w.thread.id)
    (hw : InOrderBut own w) : InOrderBut own w' :=
  hw.onward (h.onward hthread hw.toPlain) fun c _ hc => (h.init c).symm.trans hc

/-- A call claims an untouched class.  The superclass of that one need not be ready yet. -/
theorem InOrderBut.claim (h : InOrderBut own w)
    (hown : ∀ p, own = some p → (w.registry.get p).superclass = some c)
    (hinit : (w.classState c).init = .untouched) :
    InOrderBut (some c) (w.setInit c (.running w.thread.id)) where
  toPlain := h.toPlain.setInit c _
  basic := h.basic
  once := h.once
  claimed d hd := by
    have hdc : d ≠ c := fun heq => h.claimed d hd (heq ▸ hinit)
    rw [init_setInit_of_ne hdc]
    exact h.claimed d hd
  known := h.known
  alone d t hd := by
    by_cases hdc : d = c
    · subst hdc
      rw [init_setInit_self (lt_size_of_init_ne (by rw [hinit]; nofun))] at hd
      exact (InitState.running.inj hd).symm
    · rw [init_setInit_of_ne hdc] at hd
      exact h.alone d t hd
  backed d t hd hrunning s hs := by
    rw [init_setInit_of_ne fun heq => hd (congrArg some heq.symm)] at hrunning
    by_cases hsc : s = c
    · subst hsc
      exact .inr (init_setInit_self (lt_size_of_init_ne (by rw [hinit]; nofun)))
    · have hother : own ≠ some d := fun heq =>
        hsc (Option.some.inj ((show _ = some s from hs).symm.trans (hown d heq)))
      rw [Ready, init_setInit_of_ne hsc]
      exact h.backed d t hother hrunning s hs

/-- Once the superclass is ready, the state is in order. -/
theorem InOrderBut.backed_own (h : InOrderBut (some c) w)
    (hsuper : ∀ s ∈ (w.registry.get c).superclass, w.Ready s) : w.InOrder :=
  { h with
    backed := fun d t _ hd => by
      by_cases heq : d = c
      · exact heq ▸ hsuper
      · exact h.backed d t (fun h => heq (Option.some.inj h).symm) hd }

/-- The initializer of a class in progress is started for the first time. -/
theorem InOrderBut.start (h : w.InOrder) (hrunning : (w.classState c).init = .running w.thread.id)
    (hcount : w.started.count c = 0) : (w.noteStart c).InOrder where
  toPlain := ⟨h.root, h.ranked, h.sized, h.unbridged⟩
  basic := h.basic
  once d := by
    show (c :: w.started).count d ≤ 1
    by_cases hdc : d = c
    · exact Nat.le_of_eq (by rw [hdc, List.count_cons_self, hcount])
    · rw [List.count_cons_of_ne fun heq => hdc heq.symm]
      exact h.once d
  claimed d hd := by
    rcases List.mem_cons.1 hd with rfl | hd
    · intro hinit
      rw [show (w.classState d).init = .untouched from hinit] at hrunning
      cases hrunning
    · exact h.claimed d hd
  known d hd := by
    rcases List.mem_cons.1 hd with rfl | hd
    · exact h.known_of_running hrunning
    · exact h.known d hd
  alone := h.alone
  backed := h.backed

/-- An initialization that a call began and settled is over. -/
theorem Stays.settle {i : InitState} (h : Stays (w.setInit c (.running w.thread.id)) v)
    (hi : i = .done ∨ i = .failed) : Stays w (v.setInit c i) where
  running d t hd := by
    by_cases hdc : d = c
    · subst hdc
      have hlt : d.index < v.states.size := by
        have := lt_size_of_init_ne (w := v.setInit d i) (c := d) (by rw [hd]; nofun)
        rwa [show (v.setInit d i).states.size = v.states.size from
          Array.size_setIfInBounds ..] at this
      rw [init_setInit_self hlt] at hd
      rcases hi with rfl | rfl <;> cases hd
    · rw [init_setInit_of_ne hdc] at hd
      have hbefore := h.running d t hd
      rwa [init_setInit_of_ne hdc] at hbefore
  depth := h.depth
  limit := h.limit

/-! ## Room for calls -/

/-- The state is in order, and not more than so many calls may still be nested in one another. -/
structure Within (own : Option ClassId) (n : Nat) (w : World H) : Prop extends
    InOrderBut own w where
  room : w.maxCallDepth ≤ w.thread.depth + n

theorem Within.onward (h : Within own n w) (ho : Onward none w w') (hs : Stays w w') :
    Within own n w' where
  toInOrderBut := h.toInOrderBut.onward ho hs.running
  room := by
    rw [hs.limit, hs.depth]
    exact h.room

theorem Within.holding (h : Within own n w) (objects : List ObjectRef) :
    Within own n { w with held := objects ++ w.held } where
  toInOrderBut := SameClasses.inOrderBut (w := w) (.of_eq rfl) rfl h.toInOrderBut
  room := h.room

theorem Within.deeper (h : Within own (n + 1) w) :
    Within own n (w.setDepth (w.thread.depth + 1)) where
  toInOrderBut := SameClasses.inOrderBut (w := w) (.of_eq rfl) rfl h.toInOrderBut
  room := Nat.le_trans h.room (Nat.le_of_eq (by show _ = w.thread.depth + 1 + n; omega))

/-! ## Definitions -/

/-- Nothing runs in a class when it is defined. -/
theorem firstState_ne_running (w : World H) (k : Class) (t : ThreadId) :
    w.firstState k ≠ .running t := by
  intro h
  unfold firstState at h
  split at h
  · cases h
  · split at h
    · cases h
    · split at h <;> cases h

/-- Adds a class behind the others. -/
def add (w : World H) (k : Class) (s : ClassState) : World H :=
  (w.withRegistry (w.registry.push k).2).setClassState ⟨w.registry.size⟩ s

section Add

variable {k : Class} {s : ClassState} {c : ClassId}

theorem size_registry_add (w : World H) (k : Class) (s : ClassState) :
    (w.add k s).registry.size = w.registry.size + 1 := Registry.size_push _ _

theorem sized_add (h : w.states.size = w.registry.size) :
    (w.add k s).states.size = (w.add k s).registry.size := by
  have hroom : w.states.size ≤ (w.registry.push k).2.size := by
    rw [h, Registry.size_push]
    omega
  exact (Array.size_setIfInBounds ..).trans (size_states_withRegistry hroom)

theorem classState_add (h : w.states.size = w.registry.size) (c : ClassId) :
    (w.add k s).classState c = if c = ⟨w.registry.size⟩ then s else w.classState c := by
  have hstates : (w.withRegistry (w.registry.push k).2).states.size = w.registry.size + 1 := by
    rw [← size_registry_add w k s, ← sized_add h]
    exact (Array.size_setIfInBounds ..).symm
  rw [add, classState_setClassState, classState_withRegistry]
  by_cases hc : c = ⟨w.registry.size⟩
  · have hlt : c.index < w.registry.size + 1 := hc ▸ Nat.lt_succ_self _
    rw [if_pos hc, if_pos ⟨hc.symm, hstates ▸ hlt⟩]
  · rw [if_neg hc, if_neg fun h => hc h.1.symm]

theorem classState_add_of_lt (h : w.states.size = w.registry.size)
    (hc : c.index < w.registry.size) : (w.add k s).classState c = w.classState c := by
  rw [classState_add h, if_neg]
  rintro rfl
  exact Nat.lt_irrefl _ hc

/-- The new class is not in progress. -/
theorem running_of_running_add (h : w.states.size = w.registry.size)
    (hs : ∀ t, s.init ≠ .running t) {t : ThreadId}
    (hc : ((w.add k s).classState c).init = .running t) : (w.classState c).init = .running t := by
  rw [classState_add h] at hc
  split at hc
  · exact absurd hc (hs t)
  · exact hc

end Add

/-- A definition adds a class that builds on those that are there, in which nothing runs, or changes
nothing. -/
theorem defineOrKeep_cases (w : World H) (spec : ClassSpec) :
    w.defineOrKeep spec = w ∨
      ∃ k s, w.defineOrKeep spec = w.add k s ∧ (∀ t, s.init ≠ .running t) ∧
        w.registry.Founds k := by
  unfold defineOrKeep define
  cases h : w.registry.define spec with
  | error e => exact .inl rfl
  | ok p =>
    obtain ⟨c, r⟩ := p
    obtain ⟨k, hpush, hk⟩ := Registry.push_of_define h
    obtain ⟨rfl, rfl⟩ := Prod.mk.inj hpush
    exact .inr ⟨k, _, rfl, w.firstState_ne_running _, hk⟩

theorem outerSide_defineOrKeep (w : World H) (spec : ClassSpec) :
    (w.defineOrKeep spec).outerSide = w.outerSide := by
  rcases w.defineOrKeep_cases spec with heq | ⟨k, s, heq, -, -⟩ <;> rw [heq]
  rfl

theorem outerSide_start (maxCallDepth : Nat) (memory : HostMemory) (host : H) :
    (start maxCallDepth memory host).outerSide = (bare maxCallDepth memory host).outerSide := by
  have hfold : ∀ (specs : List ClassSpec) (w : World H),
      (specs.foldl defineOrKeep w).outerSide = w.outerSide := by
    intro specs
    induction specs with
    | nil => exact fun _ => rfl
    | cons spec specs ih => exact fun w => (ih _).trans (w.outerSide_defineOrKeep spec)
  exact hfold _ _

/-- Whatever is asked for, the state stays in order, and classes that are there move on. -/
structure Follows (w w' : World H) : Prop extends Stays w w' where
  inOrder : w'.InOrder
  size_le : w.registry.size ≤ w'.registry.size
  thread : w'.thread.id = w.thread.id
  moves : ∀ c, c.index < w.registry.size →
    Moves w.thread.id (w.classState c).init (w'.classState c).init

theorem InOrderBut.follows (h : w.InOrder) : Follows w w :=
  ⟨.refl w, h, Nat.le_refl _, rfl, fun _ _ => .refl⟩

theorem Follows.trans (h : Follows w w') (h' : Follows w' w'') : Follows w w'' where
  toStays := h.toStays.trans h'.toStays
  inOrder := h'.inOrder
  size_le := Nat.le_trans h.size_le h'.size_le
  thread := h'.thread.trans h.thread
  moves c hc := (h.moves c hc).trans (h.thread ▸ h'.moves c (Nat.lt_of_lt_of_le hc h.size_le))

theorem Follows.within {n : Nat} (h : Follows w w') (hw : Within none n w) : Within none n w' := by
  refine ⟨h.inOrder, ?_⟩
  rw [h.limit, h.depth]
  exact hw.room

theorem InOrderBut.follows_of_onward (h : w.InOrder) (ho : Onward none w w') (hs : Stays w w') :
    Follows w w' :=
  ⟨hs, h.onward ho hs.running, ho.registry.size_le, ho.thread, fun c _ => ho.moves c⟩

theorem InOrderBut.add (h : w.InOrder) {k : Class} {s : ClassState}
    (hs : ∀ t, s.init ≠ .running t) (hk : w.registry.Founds k) : (w.add k s).InOrder where
  root := Nat.lt_of_lt_of_eq (Nat.succ_pos _) (size_registry_add w k s).symm
  ranked := h.ranked.push (hk.superclass h.root)
  sized := sized_add h.sized
  unbridged := h.unbridged
  basic := h.basic.trans (Registry.extends_push hk)
  once := h.once
  claimed c hc := by
    rw [classState_add_of_lt h.sized (h.known c hc)]
    exact h.claimed c hc
  known c hc := Nat.lt_of_lt_of_eq (Nat.lt_succ_of_lt (h.known c hc)) (size_registry_add w k s).symm
  alone c t hc := h.alone c t (running_of_running_add h.sized hs hc)
  backed c t hown hc d hd := by
    have hrunning := running_of_running_add h.sized hs hc
    have hknown := h.known_of_running hrunning
    have hextends : w.registry.Extends (w.add k s).registry := Registry.extends_push hk
    rw [hextends.get_eq c hknown] at hd
    rw [Ready, classState_add_of_lt h.sized (Nat.lt_trans (h.ranked c d hd) hknown)]
    exact h.backed c t hown hrunning d hd

theorem InOrderBut.follows_define (h : w.InOrder) (spec : ClassSpec) :
    Follows w (w.defineOrKeep spec) := by
  rcases w.defineOrKeep_cases spec with heq | ⟨k, s, heq, hs, hk⟩ <;> rw [heq]
  · exact h.follows
  · refine ⟨⟨fun c t => running_of_running_add h.sized hs, rfl, rfl⟩, h.add hs hk, ?_, rfl,
      fun c hc => ?_⟩
    · exact Nat.le_of_lt (Nat.lt_of_lt_of_eq (Nat.lt_succ_self _) (size_registry_add w k s).symm)
    · rw [classState_add_of_lt h.sized hc]

/-- What the definitions of the first classes keep. -/
structure Fresh (n : Nat) (w : World H) : Prop where
  sized : w.states.size = w.registry.size
  started : w.started = []
  unbridged : w.bridge = none
  idle : ∀ c t, (w.classState c).init ≠ .running t
  room : w.maxCallDepth ≤ w.thread.depth + n

theorem Fresh.define {n : Nat} (h : Fresh n w) (specs : List ClassSpec) :
    Fresh n (specs.foldl defineOrKeep w) := by
  induction specs generalizing w with
  | nil => exact h
  | cons spec specs ih =>
    rw [List.foldl_cons]
    rcases w.defineOrKeep_cases spec with heq | ⟨k, s, heq, hs, -⟩ <;> rw [heq]
    · exact ih h
    · refine ih ⟨sized_add h.sized, h.started, h.unbridged, fun c t hc => ?_, h.room⟩
      exact h.idle c t (running_of_running_add h.sized hs hc)

/-- A run starts in order, and no call is in progress. -/
theorem within_start (maxCallDepth : Nat) (memory : HostMemory) (host : H) :
    Within none maxCallDepth (start maxCallDepth memory host) := by
  have hfresh : Fresh maxCallDepth (start maxCallDepth memory host) :=
    Fresh.define (w := bare maxCallDepth memory host)
      ⟨rfl, rfl, rfl, nofun, Nat.le_of_eq (Nat.zero_add _).symm⟩ firstClasses
  have hregistry := Registry.registry_start maxCallDepth memory host
  refine ⟨⟨⟨?_, ?_, hfresh.sized, hfresh.unbridged⟩, hregistry ▸ .refl _, ?_, ?_, ?_, ?_, ?_⟩,
    hfresh.room⟩
  · rw [hregistry]
    exact Registry.Reachable.basic.size_pos
  · rw [hregistry]
    exact Registry.Reachable.basic.wellFormed.ranked
  · rw [hfresh.started]
    exact fun _ => Nat.zero_le 1
  · rw [hfresh.started]
    exact nofun
  · rw [hfresh.started]
    exact nofun
  · exact fun c t hc => absurd hc (hfresh.idle c t)
  · exact fun c t _ hc => absurd hc (hfresh.idle c t)

end World

end GuestBoundary
