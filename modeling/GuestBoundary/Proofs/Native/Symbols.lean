import GuestBoundary.Native.Symbol
import GuestBoundary.Proofs.Text.Units

/-!
# Symbols can be read back

The low line stands for a slash, starts an escape, and occurs twice in front of the parameters, so
what it means depends on what follows: behind it one of the digits `0` to `3` is an escape.  Where
no text after a slash starts with one of these (`Legible`) a symbol is read back from left to right
(`readUnits_mangleChars`).  A short name is the symbol of a path whose last part is the method, and
a long name has one empty part between the method and the parameters.
-/

namespace GuestBoundary.Symbol

/-! ## Reading -/

/-- The digits that make an escape of the low line in front of them. -/
def isMark (c : Char) : Bool := '0' ≤ c && c ≤ '3'

def startsWithMark (cs : List Char) : Bool := cs.head?.any isMark

/-- No text after a slash starts like an escape. -/
def Legible (cs : List Char) : Prop :=
  ∀ part ∈ (cs.splitOn '/').tail, startsWithMark part = false

/-- The value of a hexadecimal digit. -/
def hexValue (c : Char) : Nat := if c.isDigit then c.toNat - 48 else c.toNat - 87

/-- The number that hexadecimal digits spell. -/
def readHex (cs : List Char) : Nat := cs.foldl (fun n c => 16 * n + hexValue c) 0

/-- The character that an escape of two characters stands for. -/
def escaped? (mark : Char) : Option Char :=
  if mark = '1' then some '_' else if mark = '2' then some ';'
  else if mark = '3' then some '[' else none

/-- The code units that a symbol spells. -/
def readUnits : List Char → List Text.Unit16
  | [] => []
  | c :: rest =>
    if c = '_' then
      match rest with
      | [] => [UInt16.ofNat '/'.toNat]
      | mark :: rest =>
        if mark = '0' then UInt16.ofNat (readHex (rest.take 4)) :: readUnits (rest.drop 4)
        else
          match escaped? mark with
          | some d => UInt16.ofNat d.toNat :: readUnits rest
          | none => UInt16.ofNat '/'.toNat :: readUnits (mark :: rest)
    else UInt16.ofNat c.toNat :: readUnits rest
termination_by cs => cs.length
decreasing_by all_goals simp only [List.length_cons, List.length_drop]; omega

/-! ## Numbers -/

theorem hexValue_digitChar : ∀ d < 16, hexValue d.digitChar = d := by decide

theorem readHex_append (cs : List Char) (c : Char) :
    readHex (cs ++ [c]) = 16 * readHex cs + hexValue c := by
  rw [readHex, List.foldl_append]
  rfl

theorem readHex_toDigits (n : Nat) : readHex (Nat.toDigits 16 n) = n := by
  induction n using Nat.strongRecOn with
  | ind n ih =>
    rw [Nat.toDigits_eq_if (by decide)]
    split
    case isTrue h => simpa [readHex] using hexValue_digitChar n h
    case isFalse h =>
      rw [readHex_append, ih _ (by omega), hexValue_digitChar _ (Nat.mod_lt _ (by decide))]
      omega

theorem readHex_replicate_append (k : Nat) (cs : List Char) :
    readHex (List.replicate k '0' ++ cs) = readHex cs := by
  induction k with
  | zero => rfl
  | succ k ih =>
    rw [List.replicate_succ, List.cons_append, ← ih]
    rfl

theorem readHex_hexDigits (width n : Nat) : readHex (Text.hexDigits width n) = n := by
  rw [Text.hexDigits, readHex_replicate_append, readHex_toDigits]

theorem length_hexDigits_four {n : Nat} (h : n < 65536) : (Text.hexDigits 4 n).length = 4 := by
  have := (Nat.length_toDigits_le_iff (b := 16) (k := 4) (by decide) (by decide)).2 h
  rw [Text.hexDigits, List.length_append, List.length_replicate]
  omega

/-! ## One character -/

theorem readUnits_of_ne {c : Char} (h : c ≠ '_') (rest : List Char) :
    readUnits (c :: rest) = UInt16.ofNat c.toNat :: readUnits rest := by
  rw [readUnits.eq_def]
  exact if_neg h

/-- A low line that starts no escape is a slash. -/
theorem readUnits_slash {rest : List Char} (h : startsWithMark rest = false) :
    readUnits ('_' :: rest) = UInt16.ofNat '/'.toNat :: readUnits rest := by
  rw [readUnits.eq_def]
  cases rest with
  | nil => simp [readUnits]
  | cons mark rest =>
    have hmark : isMark mark = false := h
    have hne : ∀ d, isMark d = true → mark ≠ d := by
      rintro d hd rfl
      rw [hmark] at hd
      cases hd
    have hnone : escaped? mark = none := by
      rw [escaped?, if_neg (hne _ rfl), if_neg (hne _ rfl), if_neg (hne _ rfl)]
    simp only [if_true, if_neg (hne '0' rfl), hnone]

theorem readUnits_escaped (mark : Char) {d : Char} (h : escaped? mark = some d) (rest : List Char) :
    readUnits ('_' :: mark :: rest) = UInt16.ofNat d.toNat :: readUnits rest := by
  have hzero : mark ≠ '0' := by
    rintro rfl
    cases h
  rw [readUnits.eq_def]
  simp only [if_true, if_neg hzero, h]

/-- An escape of four digits is the code unit of that number. -/
theorem readUnits_hex (u : Text.Unit16) (rest : List Char) :
    readUnits ('_' :: '0' :: Text.hexDigits 4 u.toNat ++ rest) = u :: readUnits rest := by
  have hlength := length_hexDigits_four u.toNat_lt
  rw [List.cons_append, List.cons_append, readUnits.eq_def]
  simp only [if_true]
  rw [List.take_left' hlength, List.drop_left' hlength, readHex_hexDigits, UInt16.ofNat_toNat]

theorem readUnits_hexes (us : List Text.Unit16) (rest : List Char) :
    readUnits ((us.flatMap fun u => '_' :: '0' :: Text.hexDigits 4 u.toNat) ++ rest) =
      us ++ readUnits rest := by
  induction us with
  | nil => rfl
  | cons u us ih => rw [List.flatMap_cons, List.append_assoc, readUnits_hex, ih, List.cons_append]

theorem toNat_lt_of_isPlain {c : Char} (h : isPlain c = true) : c.toNat < 128 := by
  have hle : ∀ {d : Char}, c.val ≤ d.val → d.toNat < 128 → c.toNat < 128 := fun hd =>
    Nat.lt_of_le_of_lt (UInt32.le_iff_toNat_le.1 hd)
  rcases Bool.or_eq_true_iff.1 h with hletter | hdigit
  · rcases Bool.or_eq_true_iff.1 hletter with hupper | hlower
    · obtain ⟨-, hle_Z⟩ := of_decide_eq_true hupper
      exact hle hle_Z (by decide)
    · exact hle (of_decide_eq_true (Bool.and_eq_true_iff.1 hlower).2) (by decide)
  · exact hle (of_decide_eq_true (Bool.and_eq_true_iff.1 hdigit).2) (by decide)

theorem isPlain_of_isMark {c : Char} (h : isMark c = true) : isPlain c = true := by
  simp only [isMark, Bool.and_eq_true, decide_eq_true_eq, Char.le_def, UInt32.le_iff_toNat_le] at h
  simp only [isPlain, Char.isAlphanum, Char.isDigit, Bool.or_eq_true, Bool.and_eq_true,
    decide_eq_true_eq, ge_iff_le, UInt32.le_iff_toNat_le]
  have h3 : ('3' : Char).val.toNat = 51 := rfl
  have h9 : ('9' : Char).val.toNat = 57 := rfl
  omega

/-- The first character that a symbol spells, and all that comes after it. -/
theorem readUnits_mangleChar (c : Char) {rest : List Char}
    (h : c = '/' → startsWithMark rest = false) :
    readUnits (mangleChar c ++ rest) = Text.codePointUnits c.toNat ++ readUnits rest := by
  unfold mangleChar
  split
  case isTrue hc =>
    subst hc
    exact readUnits_slash (h rfl)
  split
  case isTrue hc =>
    subst hc
    exact readUnits_escaped '1' rfl rest
  split
  case isTrue hc =>
    subst hc
    exact readUnits_escaped '2' rfl rest
  split
  case isTrue hc =>
    subst hc
    exact readUnits_escaped '3' rfl rest
  split
  case isTrue hline _ _ hplain =>
    have hunits : Text.codePointUnits c.toNat = [UInt16.ofNat c.toNat] := by
      have := toNat_lt_of_isPlain hplain
      rw [Text.codePointUnits, if_pos (by omega)]
    rw [hunits]
    exact readUnits_of_ne hline rest
  case isFalse => exact readUnits_hexes _ rest

/-! ## Whole names -/

/-- A part is marked if the text starts like an escape, or what follows a slash does. -/
theorem forall_mem_splitOn_iff {cs : List Char} :
    (∀ part ∈ cs.splitOn '/', startsWithMark part = false) ↔
      startsWithMark cs = false ∧ Legible cs := by
  cases cs with
  | nil => simp [Legible, startsWithMark]
  | cons d cs =>
    rw [Legible, List.splitOn_cons_eq_if_modifyHead]
    obtain ⟨part, parts, hparts⟩ := List.exists_cons_of_ne_nil (List.splitOn_ne_nil '/' cs)
    rw [hparts]
    split
    case isTrue hd =>
      rw [List.forall_mem_cons, List.tail_cons, eq_of_beq hd]
      rfl
    case isFalse =>
      rw [List.modifyHead_cons, List.forall_mem_cons, List.tail_cons]
      rfl

/-- What a name that is legible consists of. -/
theorem Legible.of_cons {c : Char} {cs : List Char} (h : Legible (c :: cs)) :
    Legible cs ∧ (c = '/' → startsWithMark cs = false) := by
  rw [Legible, List.splitOn_cons_eq_if_modifyHead] at h
  split at h
  case isTrue =>
    obtain ⟨hcs, hlegible⟩ := forall_mem_splitOn_iff.1 h
    exact ⟨hlegible, fun _ => hcs⟩
  case isFalse hc =>
    rw [List.tail_modifyHead] at h
    exact ⟨h, fun heq => absurd (beq_iff_eq.2 heq) hc⟩

theorem mangleChars_cons (c : Char) (cs : List Char) :
    mangleChars (c :: cs) = mangleChar c ++ mangleChars cs := List.flatMap_cons

theorem mangleChars_append (cs ds : List Char) :
    mangleChars (cs ++ ds) = mangleChars cs ++ mangleChars ds := List.flatMap_append

/-- The symbol of a character starts with a mark only if the character is one. -/
theorem startsWithMark_mangleChar (c : Char) (rest : List Char) :
    startsWithMark (mangleChar c ++ rest) = isMark c := by
  unfold mangleChar
  split
  case isTrue hc => rw [hc]; rfl
  split
  case isTrue hc => rw [hc]; rfl
  split
  case isTrue hc => rw [hc]; rfl
  split
  case isTrue hc => rw [hc]; rfl
  split
  case isTrue => rfl
  case isFalse hplain =>
    have hmark : isMark c = false :=
      eq_false_of_ne_true fun hmark => hplain (isPlain_of_isMark hmark)
    rw [hmark]
    unfold Text.codePointUnits
    split <;> rfl

theorem startsWithMark_mangleChars (cs : List Char) :
    startsWithMark (mangleChars cs) = startsWithMark cs := by
  cases cs with
  | nil => rfl
  | cons c cs => exact (mangleChars_cons c cs ▸ startsWithMark_mangleChar c _)

/-- The symbol of a legible name is read back. -/
theorem readUnits_mangleChars {cs : List Char} (h : Legible cs) :
    readUnits (mangleChars cs) = cs.flatMap fun c => Text.codePointUnits c.toNat := by
  induction cs with
  | nil => rw [mangleChars, List.flatMap_nil, readUnits.eq_def]; rfl
  | cons c cs ih =>
    obtain ⟨hcs, hslash⟩ := h.of_cons
    rw [mangleChars_cons, readUnits_mangleChar, ih hcs, List.flatMap_cons]
    rwa [startsWithMark_mangleChars]

theorem mangleChars_injective {cs ds : List Char} (hcs : Legible cs) (hds : Legible ds)
    (h : mangleChars cs = mangleChars ds) : cs = ds := by
  have hunits := congrArg (Text.charsOfUnits ∘ readUnits) h
  simpa only [Function.comp_apply, readUnits_mangleChars hcs, readUnits_mangleChars hds,
    Text.charsOfUnits_flatMap] using hunits

/-! ## Names of methods -/

/-- The parts of a class name are not empty, and no part but the first starts like an escape. -/
structure IsClassName (name : String) : Prop where
  nonempty : ∀ part ∈ name.toList.splitOn '/', part ≠ []
  legible : Legible name.toList

/-- A method name is one such part. -/
structure IsMethodName (name : String) : Prop where
  nonempty : name.toList ≠ []
  whole : '/' ∉ name.toList
  unmarked : startsWithMark name.toList = false

variable {c c' m m' : String} {params params' : List Char} {type type' : MethodType}

/-- The parts of the path to a method: those of its class and the method itself. -/
def pathParts (c m : String) : List (List Char) := c.toList.splitOn '/' ++ [m.toList]

theorem toList_shortName (c m : String) :
    (shortName c m).toList =
      "Java_".toList ++ mangleChars (c.toList ++ '/' :: m.toList) := by
  rw [shortName, mangle, mangle, mangleChars_append, mangleChars_cons]
  simp only [String.toList_append, String.toList_ofList, List.append_assoc]
  rfl

theorem toList_longName (c m : String) (type : MethodType) :
    (longName c m type).toList = "Java_".toList ++
      mangleChars (c.toList ++ '/' :: m.toList ++ '/' :: '/' :: type.paramText.toList) := by
  rw [longName, mangle, mangleChars_append, mangleChars_cons, mangleChars_cons]
  simp only [String.toList_append, String.toList_ofList, toList_shortName, List.append_assoc]
  rfl

/-- The last part of the path is the method. -/
theorem splitOn_path (hm : IsMethodName m) :
    (c.toList ++ '/' :: m.toList).splitOn '/' = pathParts c m := by
  rw [List.splitOn_append_cons_self, List.splitOn_eq_singleton hm.whole, pathParts]

/-- Behind an empty part come the parameters. -/
theorem splitOn_path_params (hm : IsMethodName m) :
    (c.toList ++ '/' :: m.toList ++ '/' :: '/' :: params).splitOn '/' =
      pathParts c m ++ [] :: params.splitOn '/' := by
  rw [List.splitOn_append_cons_self, splitOn_path hm, ← List.nil_append ('/' :: params),
    List.splitOn_append_cons_self]
  rfl

theorem nil_notMem_pathParts (hc : IsClassName c) (hm : IsMethodName m) : [] ∉ pathParts c m := by
  rw [pathParts, List.mem_append, List.mem_singleton, not_or]
  exact ⟨fun h => hc.nonempty _ h rfl, hm.nonempty.symm⟩

theorem legible_path (hc : IsClassName c) (hm : IsMethodName m) :
    Legible (c.toList ++ '/' :: m.toList) := by
  intro part hpart
  rw [splitOn_path hm, pathParts, List.tail_append_of_ne_nil (List.splitOn_ne_nil _ _),
    List.mem_append, List.mem_singleton] at hpart
  rcases hpart with hpart | rfl
  · exact hc.legible part hpart
  · exact hm.unmarked

theorem legible_path_params (hc : IsClassName c) (hm : IsMethodName m) (hparams : Legible params)
    (hunmarked : startsWithMark params = false) :
    Legible (c.toList ++ '/' :: m.toList ++ '/' :: '/' :: params) := by
  intro part hpart
  have hpath := legible_path hc hm
  rw [Legible, splitOn_path hm] at hpath
  rw [splitOn_path_params hm, List.tail_append_of_ne_nil (by simp [pathParts]), List.mem_append,
    List.mem_cons] at hpart
  rcases hpart with hpart | rfl | hpart
  · exact hpath part hpart
  · rfl
  · exact forall_mem_splitOn_iff.2 ⟨hunmarked, hparams⟩ part hpart

theorem eq_of_pathParts_eq (h : pathParts c m = pathParts c' m') : c = c' ∧ m = m' := by
  obtain ⟨hclass, hmethod⟩ := List.append_inj' h rfl
  have hpath := congrArg (List.intercalate ['/']) hclass
  rw [List.intercalate_splitOn, List.intercalate_splitOn] at hpath
  exact ⟨String.toList_inj.1 hpath, String.toList_inj.1 (List.singleton_inj.1 hmethod)⟩

theorem startsWithMark_takeWhile {cs : List Char} (h : startsWithMark cs = false)
    (p : Char → Bool) : startsWithMark (cs.takeWhile p) = false := by
  cases cs with
  | nil => rfl
  | cons c cs =>
    rw [List.takeWhile_cons]
    split
    · exact h
    · rfl

/-- No type is written with a digit in front, so no list of parameters is. -/
theorem startsWithMark_paramText (type : MethodType) :
    startsWithMark type.paramText.toList = false := by
  rw [MethodType.paramText, String.toList_ofList, MethodType.text, String.toList_ofList]
  refine startsWithMark_takeWhile ?_ _
  cases type.params with
  | nil => rfl
  | cons t ts =>
    cases t with
    | primitive p => cases p <;> rfl
    | reference name => rfl
    | array element => rfl

/-- Symbols of legible names are the same only for the same names.  A short name tells the class and
the method, a long name the class, the method and the text of the parameters, and a short name is
never a long one. -/
theorem symbols_identify_methods (hc : IsClassName c) (hm : IsMethodName m)
    (hc' : IsClassName c') (hm' : IsMethodName m') (htype : Legible type.paramText.toList)
    (htype' : Legible type'.paramText.toList) :
    (∀ s t : String, Legible s.toList → Legible t.toList → mangle s = mangle t → s = t) ∧
      (shortName c m = shortName c' m' → c = c' ∧ m = m') ∧
      (longName c m type = longName c' m' type' →
        c = c' ∧ m = m' ∧ type.paramText = type'.paramText) ∧
      shortName c m ≠ longName c' m' type' := by
  have hlong := legible_path_params hc hm htype (startsWithMark_paramText type)
  have hlong' := legible_path_params hc' hm' htype' (startsWithMark_paramText type')
  refine ⟨fun s t hs ht h => ?_, fun h => ?_, fun h => ?_, fun h => ?_⟩
  · exact String.toList_inj.1 (mangleChars_injective hs ht (String.ofList_inj.1 h))
  · have hsymbol := congrArg String.toList h
    rw [toList_shortName, toList_shortName, List.append_cancel_left_eq] at hsymbol
    have hpath := mangleChars_injective (legible_path hc hm) (legible_path hc' hm') hsymbol
    apply eq_of_pathParts_eq
    rw [← splitOn_path hm, ← splitOn_path hm', hpath]
  · have hsymbol := congrArg String.toList h
    rw [toList_longName, toList_longName, List.append_cancel_left_eq] at hsymbol
    have hpath := congrArg (List.splitOn '/') (mangleChars_injective hlong hlong' hsymbol)
    rw [splitOn_path_params hm, splitOn_path_params hm'] at hpath
    -- the parts in front of the first empty one are the same
    have hfirst := congrArg (List.splitOn []) hpath
    rw [List.splitOn_append_cons_self_of_not_mem (nil_notMem_pathParts hc hm),
      List.splitOn_append_cons_self_of_not_mem (nil_notMem_pathParts hc' hm')] at hfirst
    obtain ⟨rfl, rfl⟩ := eq_of_pathParts_eq (List.cons.inj hfirst).1
    have hparams := (List.cons.inj (List.append_cancel_left hpath)).2
    have hjoined := congrArg (List.intercalate ['/']) hparams
    rw [List.intercalate_splitOn, List.intercalate_splitOn] at hjoined
    exact ⟨rfl, rfl, String.toList_inj.1 hjoined⟩
  · -- only the path of a long name has an empty part
    have hsymbol := congrArg String.toList h
    rw [toList_shortName, toList_longName, List.append_cancel_left_eq] at hsymbol
    have hpath := mangleChars_injective (legible_path hc hm) hlong' hsymbol
    refine nil_notMem_pathParts hc hm ?_
    rw [← splitOn_path hm, hpath, splitOn_path_params hm']
    exact List.mem_append_right _ List.mem_cons_self

/-- The parameters of one of two overloads. -/
def boxed : MethodType := ⟨[.array (.primitive .int)], none⟩

/-- The parameters of the other one. -/
def plain : MethodType := ⟨[.primitive .int], none⟩

/-- Two overloads have long names of their own, and the short name is neither. -/
theorem symbols_identify_overloads :
    longName "pkg/Größe_1" "add" boxed ≠ longName "pkg/Größe_1" "add" plain ∧
      shortName "pkg/Größe_1" "add" ≠ longName "pkg/Größe_1" "add" plain := by
  have hclass : IsClassName "pkg/Größe_1" := ⟨by decide, by unfold Legible; decide⟩
  have hmethod : IsMethodName "add" := ⟨by decide, by decide, by decide⟩
  have hboxed : Legible boxed.paramText.toList := by unfold Legible; decide
  have hplain : Legible plain.paramText.toList := by unfold Legible; decide
  obtain ⟨-, -, hlong, hshort⟩ :=
    symbols_identify_methods hclass hmethod hclass hmethod hboxed hplain
  exact ⟨fun h => absurd (hlong h).2.2 (by decide), hshort⟩

end GuestBoundary.Symbol
