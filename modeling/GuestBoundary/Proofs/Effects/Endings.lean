import GuestBoundary.Proofs.Effects.Keeps

/-!
# How actions end, and runs with them

What an action keeps says nothing of runs that are over.  `Finishes R Q a` does: `R` relates the
state before the action to the one in which it answers, fails or panics, and `Q` to the one in which
it ends the run.  Where nothing is asked of such states, that is what the action keeps
(`finishes_true_iff`).
-/

namespace GuestBoundary

variable {H ε δ α β : Type} {R Q : World H → World H → Prop}

/-- A property of the state that an action leaves behind, and one of the state in which it ends the
run. -/
def Outcome.Finishes (P Q : World H → Prop) : Outcome H ε α → Prop
  | .ok _ w | .error _ w | .panic _ w => P w
  | .halt _ w => Q w

/-- The state in which an action ends, or ends the run. -/
def Outcome.final : Outcome H ε α → World H
  | .ok _ w | .error _ w | .panic _ w | .halt _ w => w

/-- `R` relates the state before the action to the one that it leaves behind, and `Q` to the one in
which it ends the run. -/
def Finishes (R Q : World H → World H → Prop) (a : Action H ε α) : Prop :=
  ∀ w, (a w).Finishes (R w) (Q w)

theorem Outcome.Finishes.leaves {P Q : World H → Prop} {o : Outcome H ε α} (h : o.Finishes P Q) :
    o.Leaves P := by
  cases o with
  | halt r w => trivial
  | _ => exact h

theorem Outcome.Leaves.finishes {P : World H → Prop} {o : Outcome H ε α} (h : o.Leaves P) :
    o.Finishes P fun _ => True := by
  cases o with
  | halt r w => trivial
  | _ => exact h

theorem Outcome.Finishes.mono {P P' Q Q' : World H → Prop} (hP : ∀ w, P w → P' w)
    (hQ : ∀ w, Q w → Q' w) {o : Outcome H ε α} (h : o.Finishes P Q) : o.Finishes P' Q' := by
  cases o with
  | halt r w => exact hQ w h
  | ok x w => exact hP w h
  | error e w => exact hP w h
  | panic m w => exact hP w h

/-- Where nothing is asked of runs that are over, the action keeps the relation. -/
theorem finishes_true_iff {a : Action H ε α} : Finishes R (fun _ _ => True) a ↔ Keeps R a :=
  ⟨fun h w => (h w).leaves, fun h w => (h w).finishes⟩

/-- Steps compose, and so do steps and the end of the run after them. -/
structure Composes (R Q : World H → World H → Prop) : Prop extends Composable R where
  ends : ∀ {w w'}, R w w' → Q w w'
  after : ∀ {w w' w''}, R w w' → Q w' w'' → Q w w''

theorem Composable.composes_true (p : Composable R) : Composes R fun _ _ => True :=
  ⟨p, fun _ => trivial, fun _ _ => trivial⟩

/-- What comes after a step. -/
theorem Outcome.Finishes.after {o : Outcome H ε α} {w w' : World H} (ho : o.Finishes (R w') (Q w'))
    (p : Composes R Q) (h : R w w') : o.Finishes (R w) (Q w) :=
  ho.mono (fun _ => p.trans h) fun _ => p.after h

theorem Outcome.Finishes.final {o : Outcome H ε α} {w : World H} (ho : o.Finishes (R w) (Q w))
    (p : Composes R Q) : Q w o.final := by
  cases o with
  | halt r w' => exact ho
  | _ => exact p.ends ho

namespace Finishes

variable (p : Composes R Q)
include p

/-! ## Actions that change nothing -/

theorem pure (a : α) : Finishes R Q (Pure.pure a : Action H ε α) := fun w => p.refl w

theorem fail (e : ε) : Finishes R Q (Action.fail e : Action H ε α) := fun w => p.refl w

theorem world : Finishes R Q (Action.world : Action H ε (World H)) := fun w => p.refl w

theorem read (f : World H → α) : Finishes R Q (Action.read f : Action H ε α) := fun w => p.refl w

theorem halt (r : Halt) : Finishes R Q (Action.halt r : Action H ε α) := fun w => p.ends (p.refl w)

theorem ofExcept (r : Except ε α) : Finishes R Q (Action.ofExcept r : Action H ε α) := by
  cases r with
  | ok a => exact pure p a
  | error e => exact fail p e

/-! ## Actions made of actions -/

omit p in
theorem update {f : World H → World H} (h : ∀ w, R w (f w)) :
    Finishes R Q (Action.update f : Action H ε Unit) := h

omit p in
theorem step {f : World H → α × World H} (h : ∀ w, R w (f w).2) :
    Finishes R Q (Action.step f : Action H ε α) := h

variable {a : Action H ε α} {f : α → Action H ε β} {w : World H}

/-- Goes on from one state. -/
theorem bind_at (ha : (a w).Finishes (R w) (Q w))
    (hf : ∀ x w', a w = .ok x w' → (f x w').Finishes (R w') (Q w')) :
    ((a >>= f) w).Finishes (R w) (Q w) := by
  cases h : a w with
  | ok x w' =>
    rw [h] at ha
    rw [Action.bind_ok h]
    exact (hf x w' h).after p ha
  | error e w' =>
    rw [h] at ha
    rwa [Action.bind_error h]
  | panic m w' =>
    rw [h] at ha
    rwa [Action.bind_panic h]
  | halt r w' =>
    rw [h] at ha
    rwa [Action.bind_halt h]

theorem bind (ha : Finishes R Q a) (hf : ∀ x, Finishes R Q (f x)) : Finishes R Q (a >>= f) :=
  fun w => bind_at p (ha w) fun x w' _ => hf x w'

theorem discard (ha : Finishes R Q a) : Finishes R Q (discard a) := bind p ha fun _ => pure p ()

omit p

theorem result_at {P P' : World H → Prop} (ha : (a w).Finishes P P') :
    (a.result w : Outcome H δ (Except ε α)).Finishes P P' := by
  unfold Action.result
  cases h : a w <;> rw [h] at ha <;> exact ha

theorem result (ha : Finishes R Q a) : Finishes R Q (a.result : Action H δ (Except ε α)) :=
  fun w => result_at (ha w)

theorem mapError (f : ε → δ) (ha : Finishes R Q a) : Finishes R Q (a.mapError f) := by
  intro w
  have := ha w
  unfold Action.mapError
  cases h : a w <;> rw [h] at this <;> exact this

/-- A run that is over has no last change. -/
theorem andFinally_at {g : World H → World H} {P P' : World H → Prop}
    (ha : (a w).Finishes (fun w' => P (g w')) P') : (a.andFinally g w).Finishes P P' := by
  unfold Action.andFinally
  cases h : a w <;> rw [h] at ha <;> exact ha

end Finishes

end GuestBoundary
