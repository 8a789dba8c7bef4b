import GuestBoundary.Fault

/-!
# Handles

Native code holds a guest reference as one 64-bit word: a tag in the low two bits, a generation in
the next 24 and a slot index above.  The generation moves on each time a slot is released, so a
word kept past its release does not name the next occupant.  `encode` packs the three fields,
`tag`, `generation` and `index` read them back (`index_encode`, `generation_encode`,
`tag_encode`, `encode_fields`).
-/

namespace GuestBoundary

/-- What sort of reference a handle is. -/
inductive RefKind where
  /-- No live reference. -/
  | invalid
  /-- Owned by a frame of one thread. -/
  | local
  /-- Owned until it is deleted. -/
  | global
  /-- Owned until it is deleted, without keeping its object. -/
  | weakGlobal
  deriving DecidableEq, Inhabited

namespace RefKind

def code : RefKind → Nat
  | invalid => 0
  | «local» => 1
  | «global» => 2
  | weakGlobal => 3

/-- The sort that a code stands for; codes that stand for none are invalid. -/
def ofCode : Nat → RefKind
  | 1 => «local»
  | 2 => «global»
  | 3 => weakGlobal
  | _ => invalid

def name : RefKind → String
  | invalid => "Invalid"
  | «local» => "Local"
  | «global» => "Global"
  | weakGlobal => "WeakGlobal"

@[simp] theorem ofCode_code (k : RefKind) : ofCode k.code = k := by cases k <;> rfl

theorem code_lt (k : RefKind) : k.code < 4 := by cases k <;> decide

theorem code_ofCode {n : Nat} (h : n < 4) : (ofCode n).code = n := by
  match n, h with
  | 0, _ => rfl
  | 1, _ => rfl
  | 2, _ => rfl
  | 3, _ => rfl

end RefKind

/-- A reference as native code holds it. -/
structure Handle where
  raw : UInt64
  deriving DecidableEq, Inhabited

namespace Handle

/-- How many generations a slot goes through before they repeat. -/
def generations : Nat := 0x1000000

/-- What one step of the index adds to a word. -/
def indexUnit : Nat := 0x4000000

/-- The largest slot index that fits. -/
def maxIndex : Nat := 0x3fffffffff

/-- The handle of no object. -/
def null : Handle := ⟨0⟩

def isNull (h : Handle) : Bool := h.raw == 0

/-- The handle of a slot in a generation. -/
def encode (index generation : Nat) (kind : RefKind) : Handle :=
  ⟨UInt64.ofNat (index * indexUnit + generation % generations * 4 + kind.code)⟩

/-- The sort that the tag says, live or not. -/
def tag (h : Handle) : RefKind := RefKind.ofCode (h.raw.toNat % 4)

def index (h : Handle) : Nat := h.raw.toNat / indexUnit

def generation (h : Handle) : Nat := h.raw.toNat / 4 % generations

/-- The generation after `g`. -/
def nextGeneration (g : Nat) : Nat := (g + 1) % generations

theorem toNat_encode {index generation : Nat} (hi : index ≤ maxIndex) (kind : RefKind) :
    (encode index generation kind).raw.toNat =
      index * indexUnit + generation % generations * 4 + kind.code := by
  have hk := kind.code_lt
  have hg : generation % generations < generations := Nat.mod_lt _ (by decide)
  simp only [generations, indexUnit, maxIndex, encode, UInt64.toNat_ofNat'] at *
  omega

@[simp] theorem index_encode {index generation : Nat} (hi : index ≤ maxIndex) (kind : RefKind) :
    (encode index generation kind).index = index := by
  have hk := kind.code_lt
  have hg : generation % generations < generations := Nat.mod_lt _ (by decide)
  rw [Handle.index, toNat_encode hi]
  simp only [generations, indexUnit] at *
  omega

@[simp] theorem generation_encode {index generation : Nat} (hi : index ≤ maxIndex)
    (hg : generation < generations) (kind : RefKind) :
    (encode index generation kind).generation = generation := by
  have hk := kind.code_lt
  rw [Handle.generation, toNat_encode hi, Nat.mod_eq_of_lt hg]
  simp only [generations, indexUnit] at *
  omega

@[simp] theorem tag_encode {index generation : Nat} (hi : index ≤ maxIndex) (kind : RefKind) :
    (encode index generation kind).tag = kind := by
  have hk := kind.code_lt
  rw [Handle.tag, toNat_encode hi]
  have : (index * indexUnit + generation % generations * 4 + kind.code) % 4 = kind.code := by
    simp only [generations, indexUnit]
    omega
  rw [this, RefKind.ofCode_code]

theorem encode_fields (h : Handle) : encode h.index h.generation h.tag = h := by
  have hlt := h.raw.toNat_lt
  have htag := RefKind.code_ofCode (Nat.mod_lt h.raw.toNat (by decide : 0 < 4))
  unfold encode Handle.index Handle.generation Handle.tag
  rw [htag, Nat.mod_mod]
  congr 1
  apply UInt64.toNat_inj.1
  simp only [UInt64.toNat_ofNat', generations, indexUnit]
  omega

/-- The handle in words. -/
def describe (h : Handle) : String :=
  if h.isNull then "Handle(null)"
  else s!"Handle({h.tag.name} #{h.index} g{h.generation})"

end Handle

end GuestBoundary
