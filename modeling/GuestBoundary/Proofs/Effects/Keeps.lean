import GuestBoundary.Native.Attachment

/-!
# What actions keep

`Keeps R a` says that `R` holds between the state before an action and the state in which it ends,
whether it answers, fails or panics; nothing is said of a run that is over.  When `R` composes, an
action keeps it as soon as its parts do, so that what a whole run keeps is read off from what
its smallest steps keep.
-/

namespace GuestBoundary

variable {H ε δ α β : Type} {R : World H → World H → Prop}

/-- The outcome of an action that ended with a result. -/
def Outcome.returned (r : Except ε α) (w : World H) : Outcome H ε α :=
  match r with
  | .ok a => .ok a w
  | .error e => .error e w

/-! ## One action after another -/

section Bind

variable {a : Action H ε α} {f : α → Action H ε β} {w w' : World H}

theorem Action.bind_ok {x : α} (h : a w = .ok x w') : (a >>= f) w = f x w' := by
  show Action.andThen a f w = _
  rw [Action.andThen, h]

theorem Action.bind_error {e : ε} (h : a w = .error e w') : (a >>= f) w = .error e w' := by
  show Action.andThen a f w = _
  rw [Action.andThen, h]

theorem Action.bind_panic {m : Option String} (h : a w = .panic m w') :
    (a >>= f) w = .panic m w' := by
  show Action.andThen a f w = _
  rw [Action.andThen, h]

theorem Action.bind_halt {r : Halt} (h : a w = .halt r w') : (a >>= f) w = .halt r w' := by
  show Action.andThen a f w = _
  rw [Action.andThen, h]

/-- Actions in a row answer if each of them does. -/
theorem Action.of_bind_ok {y : β} (h : (a >>= f) w = .ok y w') :
    ∃ x w₁, a w = .ok x w₁ ∧ f x w₁ = .ok y w' := by
  cases ha : a w with
  | ok x w₁ =>
    rw [bind_ok ha] at h
    exact ⟨x, w₁, rfl, h⟩
  | error e w₁ =>
    rw [bind_error ha] at h
    cases h
  | panic m w₁ =>
    rw [bind_panic ha] at h
    cases h
  | halt r w₁ =>
    rw [bind_halt ha] at h
    cases h

/-- The run is over during one of them. -/
theorem Action.of_bind_halt {r : Halt} (h : (a >>= f) w = .halt r w') :
    a w = .halt r w' ∨ ∃ x w₁, a w = .ok x w₁ ∧ f x w₁ = .halt r w' := by
  cases ha : a w with
  | ok x w₁ =>
    rw [bind_ok ha] at h
    exact .inr ⟨x, w₁, rfl, h⟩
  | error e w₁ =>
    rw [bind_error ha] at h
    cases h
  | panic m w₁ =>
    rw [bind_panic ha] at h
    cases h
  | halt r' w₁ =>
    rw [bind_halt ha] at h
    cases h
    exact .inl rfl

theorem Action.bind_congr {a' : Action H ε α} (h : a w = a' w) :
    (a >>= f) w = (a' >>= f) w := by
  show Action.andThen a f w = Action.andThen a' f w
  rw [Action.andThen, Action.andThen, h]

/-- What goes on after an answer only matters there. -/
theorem Action.bind_congr_ok {g : α → Action H ε β}
    (h : ∀ x w', a w = .ok x w' → f x w' = g x w') : (a >>= f) w = (a >>= g) w := by
  show Action.andThen a f w = Action.andThen a g w
  unfold Action.andThen
  cases ha : a w with
  | ok x w' => exact h x w' ha
  | error e w' => rfl
  | panic m w' => rfl
  | halt r w' => rfl

theorem Action.result_congr {a' : Action H ε α} (h : a w = a' w) :
    (a.result w : Outcome H δ _) = a'.result w := by
  rw [Action.result, Action.result, h]

theorem Action.andFinally_congr {a' : Action H ε α} {g : World H → World H} (h : a w = a' w) :
    a.andFinally g w = a'.andFinally g w := by
  rw [Action.andFinally, Action.andFinally, h]

theorem Action.holding_congr {a' : Action H ε α} {objects : List ObjectRef}
    (h : a { w with held := objects ++ w.held } = a' { w with held := objects ++ w.held }) :
    Action.holding objects a w = Action.holding objects a' w := Action.andFinally_congr h

theorem Action.result_ok {x : α} (h : a w = .ok x w') :
    (a.result w : Outcome H δ _) = .ok (.ok x) w' := by
  rw [Action.result, h]

theorem Action.result_error {e : ε} (h : a w = .error e w') :
    (a.result w : Outcome H δ _) = .ok (.error e) w' := by
  rw [Action.result, h]

theorem Action.result_panic {m : Option String} (h : a w = .panic m w') :
    (a.result w : Outcome H δ _) = .panic m w' := by
  rw [Action.result, h]

theorem Action.result_halt {r : Halt} (h : a w = .halt r w') :
    (a.result w : Outcome H δ _) = .halt r w' := by
  rw [Action.result, h]

theorem Action.returned_of_result {r : Except ε α}
    (h : (a.result w : Outcome H δ _) = .ok r w') : a w = .returned r w' := by
  unfold Action.result at h
  cases ha : a w <;> rw [ha] at h <;> cases h <;> rfl

end Bind

theorem Action.bind_assoc {γ : Type} (a : Action H ε α) (f : α → Action H ε β)
    (g : β → Action H ε γ) : (a >>= f) >>= g = a >>= fun x => f x >>= g := by
  funext w
  show Action.andThen (Action.andThen a f) g w = Action.andThen a _ w
  unfold Action.andThen
  cases a w <;> rfl

/-! ## What an action leaves behind -/

/-- A property of the state that an action leaves behind; there is none once the run is over. -/
def Outcome.Leaves (P : World H → Prop) : Outcome H ε α → Prop
  | .ok _ w | .error _ w | .panic _ w => P w
  | .halt _ _ => True

theorem Outcome.Leaves.mono {P Q : World H → Prop} (hPQ : ∀ w, P w → Q w) {o : Outcome H ε α}
    (h : o.Leaves P) : o.Leaves Q := by
  cases o with
  | ok a w => exact hPQ w h
  | error e w => exact hPQ w h
  | panic m w => exact hPQ w h
  | halt r w => trivial

/-- A property of the state in which an action answers or fails.  It may panic, but the run is not
over. -/
def Outcome.Settles (P : World H → Prop) : Outcome H ε α → Prop
  | .ok _ w | .error _ w => P w
  | .panic _ _ => True
  | .halt _ _ => False

theorem Outcome.Settles.mono {P Q : World H → Prop} (hPQ : ∀ w, P w → Q w) {o : Outcome H ε α}
    (h : o.Settles P) : o.Settles Q := by
  cases o with
  | ok a w => exact hPQ w h
  | error e w => exact hPQ w h
  | panic m w => trivial
  | halt r w => exact h

theorem Outcome.Settles.and_leaves {P Q : World H → Prop} {o : Outcome H ε α} (h : o.Settles P)
    (h' : o.Leaves Q) : o.Settles fun w => P w ∧ Q w := by
  cases o with
  | ok a w => exact ⟨h, h'⟩
  | error e w => exact ⟨h, h'⟩
  | panic m w => trivial
  | halt r w => exact h

/-- Where an action settles, the next one takes over. -/
theorem Outcome.Settles.bind {a : Action H ε α} {f : α → Action H ε β} {w : World H}
    {P Q : World H → Prop} (ha : (a w).Settles P) (hPQ : ∀ w', P w' → Q w')
    (hf : ∀ x w', a w = .ok x w' → P w' → (f x w').Settles Q) : ((a >>= f) w).Settles Q := by
  cases h : a w with
  | ok x w' =>
    rw [h] at ha
    rw [Action.bind_ok h]
    exact hf x w' h ha
  | error e w' =>
    rw [h] at ha
    rw [Action.bind_error h]
    exact hPQ w' ha
  | panic m w' =>
    rw [Action.bind_panic h]
    trivial
  | halt r w' =>
    rw [h] at ha
    exact ha.elim

theorem Outcome.Settles.result {a : Action H ε α} {w : World H} {P : World H → Prop}
    (h : (a w).Settles P) :
    (a.result w : Outcome H δ (Except ε α)).Settles P := by
  unfold Action.result
  cases ha : a w <;> rw [ha] at h <;> exact h

/-- Taking the result, an action does not fail. -/
theorem Outcome.Settles.result_bind {a : Action H ε α} {f : Except ε α → Action H δ β}
    {w : World H} {P Q : World H → Prop} (ha : (a w).Settles P)
    (hf : ∀ r w', P w' → (f r w').Settles Q) : ((a.result >>= f) w).Settles Q := by
  cases h : a w with
  | ok x w' =>
    rw [h] at ha
    rw [Action.bind_ok (Action.result_ok h)]
    exact hf _ w' ha
  | error e w' =>
    rw [h] at ha
    rw [Action.bind_ok (Action.result_error h)]
    exact hf _ w' ha
  | panic m w' =>
    rw [Action.bind_panic (Action.result_panic h)]
    trivial
  | halt r w' =>
    rw [h] at ha
    exact ha.elim

theorem Outcome.Settles.andFinally {a : Action H ε α} {f : World H → World H} {w : World H}
    {P : World H → Prop} (h : (a w).Settles fun w' => P (f w')) : (a.andFinally f w).Settles P := by
  unfold Action.andFinally
  cases ha : a w <;> rw [ha] at h <;> exact h

/-- What the first action leaves behind matters where it does not answer, and to the second one. -/
theorem Outcome.Leaves.bind {a : Action H ε α} {f : α → Action H ε β} {w : World H}
    {P Q : World H → Prop} (ha : (a w).Leaves P) (hPQ : ∀ w', P w' → Q w')
    (hf : ∀ x w', a w = .ok x w' → P w' → (f x w').Leaves Q) : ((a >>= f) w).Leaves Q := by
  cases h : a w with
  | ok x w' =>
    rw [h] at ha
    rw [Action.bind_ok h]
    exact hf x w' h ha
  | error e w' =>
    rw [h] at ha
    rw [Action.bind_error h]
    exact hPQ w' ha
  | panic m w' =>
    rw [h] at ha
    rw [Action.bind_panic h]
    exact hPQ w' ha
  | halt r w' =>
    rw [Action.bind_halt h]
    trivial

/-- The action leaves behind only states that `R` relates to the one before. -/
def Keeps (R : World H → World H → Prop) (a : Action H ε α) : Prop := ∀ w, (a w).Leaves (R w)

/-- A relation that holds over no steps, and over several if it holds over each. -/
structure Composable (R : World H → World H → Prop) : Prop where
  refl : ∀ w, R w w
  trans : ∀ {w w' w''}, R w w' → R w' w'' → R w w''

namespace Keeps

/-! ## Actions that change nothing -/

section Still

variable (p : Composable R)
include p

theorem pure (a : α) : Keeps R (Pure.pure a : Action H ε α) := fun w => p.refl w

theorem fail (e : ε) : Keeps R (Action.fail e : Action H ε α) := fun w => p.refl w

theorem world : Keeps R (Action.world : Action H ε (World H)) := fun w => p.refl w

theorem read (f : World H → α) : Keeps R (Action.read f : Action H ε α) := fun w => p.refl w

theorem ofExcept (r : Except ε α) : Keeps R (Action.ofExcept r : Action H ε α) := by
  cases r with
  | ok a => exact pure p a
  | error e => exact fail p e

end Still

theorem halt (r : Halt) : Keeps R (Action.halt r : Action H ε α) := fun _ => trivial

/-! ## Changes -/

theorem update {f : World H → World H} (h : ∀ w, R w (f w)) :
    Keeps R (Action.update f : Action H ε Unit) := h

theorem step {f : World H → α × World H} (h : ∀ w, R w (f w).2) :
    Keeps R (Action.step f : Action H ε α) := h

/-! ## Actions made of actions -/

variable {a : Action H ε α}

/-- Goes on from one state. -/
theorem bind_at {f : α → Action H ε β} (p : Composable R) {w : World H} (ha : (a w).Leaves (R w))
    (hf : ∀ x w', a w = .ok x w' → (f x w').Leaves (R w')) : ((a >>= f) w).Leaves (R w) :=
  ha.bind (fun _ => id) fun x w' h hw => (hf x w' h).mono fun _ => p.trans hw

theorem bind {f : α → Action H ε β} (p : Composable R) (ha : Keeps R a) (hf : ∀ x, Keeps R (f x)) :
    Keeps R (a >>= f) := fun w => bind_at p (ha w) fun x w' _ => hf x w'

theorem discard (p : Composable R) (ha : Keeps R a) : Keeps R (discard a) :=
  bind p ha fun _ => pure p ()

theorem mapError (f : ε → δ) (ha : Keeps R a) : Keeps R (a.mapError f) := by
  intro w
  have := ha w
  unfold Action.mapError
  cases h : a w <;> rw [h] at this <;> exact this

theorem result_at {w : World H} {P : World H → Prop} (ha : (a w).Leaves P) :
    (a.result w : Outcome H δ (Except ε α)).Leaves P := by
  unfold Action.result
  cases h : a w <;> rw [h] at ha <;> exact ha

theorem result (ha : Keeps R a) : Keeps R (a.result : Action H δ (Except ε α)) :=
  fun w => result_at (ha w)

end Keeps

/-- What holds after the last change. -/
theorem Outcome.leaves_andFinally {a : Action H ε α} {f : World H → World H} {P : World H → Prop}
    {w : World H} (h : (a w).Leaves fun w' => P (f w')) : (a.andFinally f w).Leaves P := by
  unfold Action.andFinally
  cases ha : a w <;> rw [ha] at h <;> exact h

/-! ## Actions that do not panic -/

/-- The action answers or fails, unless the run is over. -/
def NeverPanics (a : Action H ε α) : Prop := ∀ w m w', a w ≠ .panic m w'

namespace NeverPanics

theorem pure (a : α) : NeverPanics (Pure.pure a : Action H ε α) := fun _ _ _ => nofun

theorem ofExcept (r : Except ε α) : NeverPanics (Action.ofExcept r : Action H ε α) := by
  intro w m w' h
  cases r <;> cases h

theorem bind {a : Action H ε α} {f : α → Action H ε β} (ha : NeverPanics a)
    (hf : ∀ x, NeverPanics (f x)) : NeverPanics (a >>= f) := by
  intro w m w' h
  cases hr : a w with
  | ok x w₁ =>
    rw [Action.bind_ok hr] at h
    exact hf x w₁ m w' h
  | error e w₁ =>
    rw [Action.bind_error hr] at h
    cases h
  | panic m₁ w₁ => exact ha w m₁ w₁ hr
  | halt r w₁ =>
    rw [Action.bind_halt hr] at h
    cases h

end NeverPanics

/-! ## Actions that answer -/

/-- The action answers, and the answer and the state afterwards are so; or the run is over. -/
def Outcome.Returns (P : α → World H → Prop) : Outcome H ε α → Prop
  | .ok a w => P a w
  | .error _ _ | .panic _ _ => False
  | .halt _ _ => True

theorem Outcome.Returns.mono {P Q : α → World H → Prop} (hPQ : ∀ a w, P a w → Q a w)
    {o : Outcome H ε α} (h : o.Returns P) : o.Returns Q := by
  cases o with
  | ok a w => exact hPQ a w h
  | error e w => exact h
  | panic m w => exact h
  | halt r w => trivial

theorem Outcome.Returns.bind {a : Action H ε α} {f : α → Action H ε β} {P : α → World H → Prop}
    {Q : β → World H → Prop} {w : World H} (ha : (a w).Returns P)
    (hf : ∀ x w', P x w' → (f x w').Returns Q) : ((a >>= f) w).Returns Q := by
  cases h : a w with
  | ok x w' =>
    rw [h] at ha
    rw [Action.bind_ok h]
    exact hf x w' ha
  | error e w' =>
    rw [h] at ha
    exact False.elim ha
  | panic m w' =>
    rw [h] at ha
    exact False.elim ha
  | halt r w' =>
    rw [Action.bind_halt h]
    trivial

end GuestBoundary
