import GuestBoundary.Proofs.Json.Grammar
import GuestBoundary.Proofs.Text.Units
import Mathlib.Tactic.IntervalCases
import Mathlib.Tactic.SplitIfs

/-!
# Written values

The writer keeps to the grammar: what it writes for a value spells that value (`spells_write`), so
it is read back (`parse?_pretty`).  That asks of the value that it can be written at all: the digits
of its numbers are digits, and its strings are texts (`Proper`).
-/

namespace GuestBoundary

/-- The parts of the number that are kept as digits are digits. -/
structure JsonNumber.Proper (n : JsonNumber) : Prop where
  fraction : ∀ ds, n.fraction = some ds → Json.Digits ds
  exponent : ∀ es, n.exponent = some es → Json.SpellsExponent ('e' :: es) (some es)

namespace Json

mutual

/-- The value can be written. -/
def Proper : Json → Prop
  | number n => n.Proper
  | string us => ∃ s, us = Text.units s
  | array items => ProperItems items
  | object members => ProperMembers members
  | _ => True

def ProperItems : List Json → Prop
  | [] => True
  | item :: items => Proper item ∧ ProperItems items

def ProperMembers : List (List Text.Unit16 × Json) → Prop
  | [] => True
  | (key, value) :: members => (∃ s, key = Text.units s) ∧ Proper value ∧ ProperMembers members

end

/-! ## Strings -/

theorem textOfUnits?_units (s : String) : textOfUnits? (Text.units s) = some s := by
  have hback : Text.ofUnits (Text.units s) = s := by
    rw [Text.ofUnits, Text.units, Text.charsOfUnits_flatMap, String.ofList_toList]
  rw [textOfUnits?, hback, if_pos rfl]

theorem units_of_textOfUnits? {us : List Text.Unit16} {s : String}
    (h : textOfUnits? us = some s) : Text.units s = us := by
  rw [textOfUnits?] at h
  split at h
  case isTrue hback =>
    cases h
    exact hback
  case isFalse => cases h

theorem exists_hexDigits {n : Nat} (hn : n < 0x20) : ∃ a b c d,
    Text.hexDigits 4 n = [a, b, c, d] ∧ hexUnit? a b c d = some (UInt16.ofNat n) := by
  interval_cases n <;> exact ⟨_, _, _, _, rfl, rfl⟩

theorem SpellsString.writeChar_append {cs : List Char} {us : List Text.Unit16}
    (h : SpellsString cs us) (c : Char) :
    SpellsString (writeChar c ++ cs) (Text.codePointUnits c.toNat ++ us) := by
  have hescape : ∀ e u, escapeUnit? e = some u → Text.codePointUnits c.toNat = [u] →
      SpellsString ('\\' :: e :: cs) (Text.codePointUnits c.toNat ++ us) := by
    intro e u letter hunits
    rw [hunits]
    exact .escape letter h
  unfold writeChar
  split_ifs with quote backslash hn hr ht hb hf control
  · exact hescape '"' _ rfl (quote ▸ rfl)
  · exact hescape '\\' _ rfl (backslash ▸ rfl)
  · exact hescape 'n' _ rfl (hn ▸ rfl)
  · exact hescape 'r' _ rfl (hr ▸ rfl)
  · exact hescape 't' _ rfl (ht ▸ rfl)
  · exact hescape 'b' _ rfl (hb ▸ rfl)
  · exact hescape 'f' _ rfl (hf ▸ rfl)
  · obtain ⟨a, b, c', d, hdigits, hunit⟩ := exists_hexDigits control
    rw [hdigits, Text.codePointUnits, if_pos (by omega)]
    exact .unit hunit h
  · exact .plain quote backslash (Nat.le_of_not_lt control) h

theorem spells_writeString (s : String) :
    ∃ cs, writeString (Text.units s) = '"' :: cs ∧ SpellsString cs (Text.units s) := by
  refine ⟨s.toList.flatMap writeChar ++ ['"'], ?_, ?_⟩
  · rw [writeString, Text.units, Text.charsOfUnits_flatMap, List.cons_append]
  · rw [Text.units]
    induction s.toList with
    | nil => exact .close
    | cons c cs ih =>
      rw [List.flatMap_cons, List.flatMap_cons, List.append_assoc]
      exact ih.writeChar_append c

/-! ## Numbers -/

theorem digitChar_digit : ∀ d < 10, isDigit d.digitChar = true ∧
    d.digitChar.toNat - '0'.toNat = d ∧ (d.digitChar = '0' → d = 0) := by
  decide

theorem decimal_eq (n : Nat) : decimal n =
    if n < 10 then [n.digitChar] else decimal (n / 10) ++ [(n % 10).digitChar] :=
  Nat.toDigits_eq_if (by decide)

/-- A decimal numeral has digits. -/
theorem digits_decimal (n : Nat) : Digits (decimal n) := by
  induction n using Nat.strongRecOn with
  | ind n ih =>
    rw [decimal_eq]
    split
    case isTrue hn => exact ⟨nofun, by simpa using (digitChar_digit n hn).1⟩
    case isFalse hn =>
      obtain ⟨hne, hdigits⟩ := ih (n / 10) (by omega)
      refine ⟨by simp, fun c hc => ?_⟩
      rcases List.mem_append.1 hc with hc | hc
      · exact hdigits c hc
      · rw [List.mem_singleton.1 hc]
        exact (digitChar_digit (n % 10) (Nat.mod_lt n (by decide))).1

/-- A decimal numeral spells its number. -/
theorem digitsValue_decimal (n : Nat) : digitsValue (decimal n) = n := by
  induction n using Nat.strongRecOn with
  | ind n ih =>
    rw [decimal_eq]
    split
    case isTrue hn =>
      rw [digitsValue, List.foldl_cons, List.foldl_nil, (digitChar_digit n hn).2.1]
      omega
    case isFalse hn =>
      have hlast := (digitChar_digit (n % 10) (Nat.mod_lt n (by decide))).2.1
      have hfront := ih (n / 10) (by omega)
      rw [digitsValue] at hfront ⊢
      rw [List.foldl_append, hfront, List.foldl_cons, List.foldl_nil, hlast]
      omega

/-- A zero stands in front of a decimal numeral only if it is all of it. -/
theorem length_decimal_of_zero (n : Nat) (h : (decimal n).head? = some '0') :
    (decimal n).length = 1 := by
  have hzero : ∀ n, (decimal n).head? = some '0' → n = 0 := by
    intro n
    induction n using Nat.strongRecOn with
    | ind n ih =>
      rw [decimal_eq]
      split
      case isTrue hn => exact fun h => (digitChar_digit n hn).2.2 (Option.some.inj h)
      case isFalse hn =>
        intro h
        obtain ⟨d, ds, heq⟩ := List.exists_cons_of_ne_nil (digits_decimal (n / 10)).1
        have := ih (n / 10) (by omega) (by rw [heq] at h ⊢; exact h)
        omega
  rw [hzero n h]
  rfl

theorem spells_writeNumber {n : JsonNumber} (proper : n.Proper) :
    SpellsNumber (writeNumber n) n := by
  obtain ⟨negative, whole, fraction, exponent⟩ := n
  have hnumber : ∀ {fs es}, SpellsFraction fs fraction → SpellsExponent es exponent →
      SpellsNumber ((if negative then ['-'] else []) ++ (decimal whole ++ (fs ++ es)))
        ⟨negative, whole, fraction, exponent⟩ := by
    intro fs es behind scale
    have := SpellsNumber.mk negative (digits_decimal whole) (length_decimal_of_zero whole) behind
      scale
    rwa [digitsValue_decimal] at this
  rcases fraction with _ | ds <;> rcases exponent with _ | es
  · simpa [writeNumber] using hnumber .absent .absent
  · simpa [writeNumber] using hnumber .absent (proper.exponent es rfl)
  · simpa [writeNumber] using hnumber (.present (proper.fraction ds rfl)) .absent
  · simpa [writeNumber] using hnumber (.present (proper.fraction ds rfl)) (proper.exponent es rfl)

/-! ## Values -/

theorem blank_newline (depth : Nat) : Blank (newline depth) := by
  intro c hc
  rcases List.mem_cons.1 hc with rfl | hc
  · rfl
  · rw [(List.mem_replicate.1 hc).2]
    rfl

theorem blank_nil : Blank [] := nofun

theorem blank_space : Blank [' '] := by
  rintro c hc
  rw [List.mem_singleton.1 hc]
  rfl

mutual

/-- What is written for a value spells it. -/
theorem spells_write (depth : Nat) : ∀ j : Json, Proper j → Spells (.value j) (write depth j)
  | .null, _ => .null
  | .boolean true, _ => .truth
  | .boolean false, _ => .falsehood
  | .number _, proper => .number (spells_writeNumber proper)
  | .string _, ⟨s, hs⟩ => by
    obtain ⟨cs, hwrite, hcs⟩ := spells_writeString s
    rw [hs, write, hwrite]
    exact .string hcs
  | .array [], _ => .noItems blank_nil
  | .array (item :: items), ⟨hitem, hitems⟩ => by
    have := spells_writeItems (depth + 1) items hitems (blank_newline (depth + 1))
      (spells_write (depth + 1) item hitem) (blank_newline depth)
    simpa only [write, List.append_assoc, List.cons_append] using this.array
  | .object [], _ => .noMembers blank_nil
  | .object ((key, value) :: members), ⟨hkey, hvalue, hmembers⟩ => by
    have := spells_writeMembers (depth + 1) members hmembers (blank_newline (depth + 1)) hkey
      (spells_write (depth + 1) value hvalue) (blank_newline depth)
    simpa only [write, List.append_assoc, List.cons_append, List.nil_append] using this.object

/-- The items of an array, from the first one to the end. -/
theorem spells_writeItems (depth : Nat) : ∀ items : List Json, ProperItems items →
    ∀ {b cs b' : List Char} {item : Json}, Blank b → Spells (.value item) cs → Blank b' →
      Spells (.items (item :: items)) (b ++ (cs ++ (writeItems depth items ++ (b' ++ [']']))))
  | [], _ => fun hb hitem hb' => .lastItem hb hitem hb'
  | next :: items, ⟨hnext, hitems⟩ => fun hb hitem hb' => by
    have := spells_writeItems depth items hitems (blank_newline depth)
      (spells_write depth next hnext) hb'
    simpa only [writeItems, List.append_assoc, List.cons_append, List.nil_append] using
      Spells.item hb hitem blank_nil this

/-- The members of an object, from the first one to the end. -/
theorem spells_writeMembers (depth : Nat) : ∀ members : List (List Text.Unit16 × Json),
    ProperMembers members → ∀ {b cs b' : List Char} {key : List Text.Unit16} {value : Json},
      Blank b → (∃ s, key = Text.units s) → Spells (.value value) cs → Blank b' →
      Spells (.members ((key, value) :: members))
        (b ++ (writeString key ++ (':' :: ' ' :: (cs ++ (writeMembers depth members ++
          (b' ++ ['}']))))))
  | [], _ => by
    rintro hb ⟨s, rfl⟩ hvalue hb'
    obtain ⟨ks, hwrite, hks⟩ := spells_writeString s
    rw [hwrite]
    exact .lastMember hb hks blank_nil blank_space hvalue hb'
  | (next, more) :: members, ⟨hnext, hmore, hmembers⟩ => by
    rintro hb ⟨s, rfl⟩ hvalue hb'
    obtain ⟨ks, hwrite, hks⟩ := spells_writeString s
    have := spells_writeMembers depth members hmembers (blank_newline depth) hnext
      (spells_write depth more hmore) hb'
    rw [hwrite]
    simpa only [writeMembers, List.append_assoc, List.cons_append, List.nil_append] using
      Spells.member hb hks blank_nil blank_space hvalue blank_nil this

end

theorem holds_pretty {j : Json} (proper : Proper j) : Holds j.pretty j :=
  ⟨[], write 0 j, [], blank_nil, spells_write 0 j proper, blank_nil, by
    rw [pretty, String.toList_ofList, List.nil_append, List.append_nil]⟩

/-- What is written is read back. -/
theorem parse?_pretty {j : Json} (proper : Proper j) : parse? j.pretty = some j :=
  parse?_eq_some_iff.2 (holds_pretty proper)

end Json

end GuestBoundary
