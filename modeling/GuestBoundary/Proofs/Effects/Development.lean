import GuestBoundary.Proofs.Effects.Attachment
import GuestBoundary.Proofs.Guest.Order

/-!
# How states develop

Whatever runs, classes stay what they are, an object that stands for a class or a member does so for
good, and a number of a member goes on naming it (`World.Develops`).  From the start on, members are
looked for in classes that are there, no member has two numbers, and threads keep their references
in order (`World.WellKept`).
-/

namespace GuestBoundary.World

variable {H : Type} {w w' w'' : World H}

/-- Members are looked for in classes that are there, no member has two numbers, and the local
references of every thread are in order. -/
structure WellKept (w : World H) : Prop where
  searchable : w.registry.Searchable
  indexed : ∀ b, w.bridge = some b → b.Indexed
  running : ∀ a, w.attachment = some a → a.locals.WellFormed
  waiting : ∀ t ∈ w.waiting, ∀ a, t.attachment = some a → a.locals.WellFormed

/-- What classes, objects that stand for something and numbers of members are, they stay. -/
structure Develops (w w' : World H) : Prop where
  registry : w.registry.Extends w'.registry
  heap : w.heap.Develops w'.heap
  bridge : ∀ b, w.bridge = some b → ∃ b', w'.bridge = some b' ∧ b.Develops b'
  wellKept : w.WellKept → w'.WellKept

/-- What is there besides classes and objects is the same. -/
theorem Develops.of_outerSide (registry : w.registry.Extends w'.registry)
    (heap : w.heap.Develops w'.heap) (thread : w'.thread = w.thread)
    (waiting : w'.waiting = w.waiting) (bridge : w'.bridge = w.bridge) : Develops w w' where
  registry := registry
  heap := heap
  bridge b hb := ⟨b, bridge.trans hb, .refl b⟩
  wellKept hw := by
    refine ⟨registry.searchable hw.searchable, ?_, ?_, ?_⟩
    · rw [bridge]
      exact hw.indexed
    · rw [attachment, thread]
      exact hw.running
    · rw [waiting]
      exact hw.waiting

theorem Develops.refl (w : World H) : Develops w w :=
  .of_outerSide (.refl _) (.refl _) rfl rfl rfl

theorem Develops.trans (h : Develops w w') (h' : Develops w' w'') : Develops w w'' where
  registry := h.registry.trans h'.registry
  heap := h.heap.trans h'.heap
  bridge b hb := by
    obtain ⟨b', hb', d⟩ := h.bridge b hb
    obtain ⟨b'', hb'', d'⟩ := h'.bridge b' hb'
    exact ⟨b'', hb'', d.trans d'⟩
  wellKept hw := h'.wellKept (h.wellKept hw)

theorem SameSide.develops (h : SameSide w w') : Develops w w' :=
  .of_outerSide h.classes.registry h.heap h.thread h.waiting h.bridge

theorem develops_progressNeutral : ProgressNeutral (Develops (H := H)) where
  refl := .refl
  trans := .trans
  sameSide := SameSide.develops
  setInit _ _ _ := .of_outerSide (.refl _) (.refl _) rfl rfl rfl
  noteStart _ _ := .of_outerSide (.refl _) (.refl _) rfl rfl rfl

theorem develops_withBridge {b b' : Bridge} (hb : w.bridge = some b) (h : b.Develops b') :
    Develops w { w with bridge := some b' } where
  registry := .refl _
  heap := .refl _
  bridge b₁ hb₁ := by
    cases hb.symm.trans hb₁
    exact ⟨b', rfl, h⟩
  wellKept hw := by
    refine ⟨hw.searchable, fun b₁ hb₁ => ?_, hw.running, hw.waiting⟩
    cases hb₁
    exact h.indexed (hw.indexed b hb)

theorem develops_neutral : AttachmentNeutral (Develops (H := H)) where
  toGuestNeutral := develops_progressNeutral.guestNeutral
  withBridge := develops_withBridge
  setAttachment h :=
    { registry := .refl _
      heap := .refl _
      bridge := fun b hb => ⟨b, hb, .refl b⟩
      wellKept := fun hw => ⟨hw.searchable, hw.indexed, h hw.running, hw.waiting⟩ }

/-- A new bridge is put in charge where there is none. -/
theorem develops_install (hb : w.bridge = none) (config : Config) :
    Develops w (w.install config) where
  registry := .refl _
  heap := .refl _
  bridge b hb' := nomatch hb.symm.trans hb'
  wellKept hw := by
    refine ⟨hw.searchable, fun b hb => ?_, hw.running, hw.waiting⟩
    cases hb
    exact Bridge.indexed_empty config

theorem WellKept.setDepth (hw : w.WellKept) (depth : Nat) : (w.setDepth depth).WellKept :=
  ⟨hw.searchable, hw.indexed, hw.running, hw.waiting⟩

variable {native : NativeCode H}

/-- Calls of any depth develop the state if native code does. -/
theorem develops_invoke (hnative : NativeKeeps Develops native) (fuel : Nat) :
    CallsKeep Develops (Guest.invoke native fuel) := by
  refine develops_neutral.invoke hnative (fun h => ?_) fuel
  exact ⟨h.registry, h.heap, h.bridge, fun hw => (h.wellKept (hw.setDepth _)).setDepth _⟩

theorem develops_defineOrKeep (w : World H) (spec : ClassSpec) :
    Develops w (w.defineOrKeep spec) := by
  rcases w.defineOrKeep_cases spec with heq | ⟨k, s, heq, -, hk⟩ <;> rw [heq]
  · exact .refl w
  · exact .of_outerSide (Registry.extends_push hk) (.refl _) rfl rfl rfl

/-- Whatever happens, the state develops, if it does where native code and the embedding program act
on their own. -/
theorem Steps.develops {aside : World H → World H → Prop} (hnative : NativeKeeps Develops native)
    (haside : ∀ {w w'}, aside w w' → Develops w w') (h : Steps (Guest.invoke native) aside w w') :
    Develops w w' :=
  h.keeps develops_neutral (develops_invoke hnative) develops_neutral.toComposable id
    develops_defineOrKeep haside

theorem wellKept_start (maxCallDepth : Nat) (memory : HostMemory) (host : H) :
    (start maxCallDepth memory host).WellKept := by
  obtain ⟨hthread, h⟩ := Prod.mk.inj (outerSide_start maxCallDepth memory host)
  obtain ⟨hwaiting, h⟩ := Prod.mk.inj h
  have hbridge : (start maxCallDepth memory host).bridge = none := (Prod.mk.inj (Prod.mk.inj h).2).2
  constructor
  case searchable =>
    rw [Registry.registry_start]
    exact Registry.Reachable.basic.searchable
  case indexed =>
    rw [hbridge]
    nofun
  case running =>
    rw [attachment, show (start maxCallDepth memory host).thread = _ from hthread]
    nofun
  case waiting =>
    rw [show (start maxCallDepth memory host).waiting = _ from hwaiting]
    nofun

end GuestBoundary.World
