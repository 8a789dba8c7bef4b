import GuestBoundary.Proofs.Classes.Growth

/-!
# Names of classes and methods

A class that is added has a name that no class had (`Registry.Admits.fresh`), so in a registry that
can come about a name belongs to one class.  What is declared stays declared as the registry grows.
-/

namespace GuestBoundary.Registry

variable {r r' : Registry} {c d : ClassId} {m n : MethodRef}

theorem nameOf_ne_of_find?_eq_none {name : String} (h : r.find? name = none)
    (hc : c.index < r.size) : r.nameOf c ≠ name := by
  have hnone := Option.map_eq_none_iff.1 h
  rw [Array.findIdx?_eq_none_iff] at hnone
  intro hname
  have := hnone r.classes[c.index] (Array.getElem_mem hc)
  rw [nameOf, get, Array.getElem?_eq_getElem hc] at hname
  rw [beq_eq_false_iff_ne] at this
  exact this hname

theorem Admits.fresh {k : Class} (h : r.Admits k) : r.find? k.name = none := by
  cases h with
  | defined _ fresh => exact fresh
  | array fresh => exact fresh

/-- No two classes have one name. -/
theorem Reachable.nameOf_injective (h : r.Reachable) (hc : c.index < r.size)
    (hd : d.index < r.size) (hname : r.nameOf c = r.nameOf d) : c = d := by
  suffices hall : ∀ c d : ClassId, c.index < r.size → d.index < r.size →
      r.nameOf c = r.nameOf d → c = d from hall c d hc hd hname
  clear hname hd hc
  refine h.induction (P := fun r => ∀ c d : ClassId, c.index < r.size → d.index < r.size →
    r.nameOf c = r.nameOf d → c = d) (fun c d hc => absurd hc (Nat.not_lt_zero _)) ?_
  intro r k ih hk c d hc hd hname
  rw [size_push] at hc hd
  have hold : ∀ e : ClassId, e.index < r.size → (r.push k).2.nameOf e = r.nameOf e :=
    fun e he => congrArg Class.name (get_push_of_lt he)
  have hnew : ∀ e : ClassId, ¬ e.index < r.size → e.index < r.size + 1 →
      e = ⟨r.size⟩ ∧ (r.push k).2.nameOf e = k.name := by
    intro e he he'
    obtain rfl : e = ⟨r.size⟩ := by
      cases e
      simp only [ClassId.mk.injEq] at *
      omega
    exact ⟨rfl, congrArg Class.name get_push_self⟩
  by_cases hcr : c.index < r.size <;> by_cases hdr : d.index < r.size
  · apply ih c d hcr hdr
    rwa [hold c hcr, hold d hdr] at hname
  · rw [hold c hcr, (hnew d hdr hd).2] at hname
    exact absurd hname (nameOf_ne_of_find?_eq_none hk.fresh hcr)
  · rw [hold d hdr, (hnew c hcr hc).2] at hname
    exact absurd hname.symm (nameOf_ne_of_find?_eq_none hk.fresh hdr)
  · rw [(hnew c hcr hc).1, (hnew d hdr hd).1]

theorem Declares.lt_size (h : r.Declares c m) : c.index < r.size := by
  by_contra hc
  have := h.2
  rw [get_of_le (Nat.le_of_not_lt hc)] at this
  exact absurd this (Nat.not_lt_zero _)

/-! ### Growth -/

theorem Extends.method_eq (h : Extends r r') (hm : m.owner.index < r.size) :
    r'.method m = r.method m := by
  rw [method, h.get_eq _ hm, method]

theorem Extends.defineOrKeep (r : Registry) (spec : ClassSpec) :
    Extends r (r.defineOrKeep spec) := by
  unfold Registry.defineOrKeep
  split
  next c r' hdefine =>
    obtain ⟨k, hpush, hk⟩ := push_of_define hdefine
    have := extends_push hk
    rwa [hpush] at this
  next => exact .refl r

theorem Extends.declares (h : Extends r r') (hm : r.Declares c m) : r'.Declares c m := by
  refine ⟨hm.1, ?_⟩
  rw [h.get_eq _ hm.lt_size]
  exact hm.2

end GuestBoundary.Registry
