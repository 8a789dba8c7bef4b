import GuestBoundary.Descriptor.Parser

/-!
# The grammar of descriptors

`FieldType.chars` and `MethodType.text` write descriptors; here the readers are shown to be their
inverses.  No descriptor of a type is the beginning of another one, so a reader that meets the
characters of a type takes exactly these (`readField_chars`), and what it takes are the characters
of the type that it returns (`chars_of_readField`).  `TypeText` says what the text of a type is
without mentioning types.
-/

namespace GuestBoundary

namespace Descriptor

/-! ## One type at the front -/

/-- The characters up to a mark that ends them, and those from the mark on. -/
theorem takeWhile_dropWhile_mark {name : List Char} (h : ';' ∉ name) (rest : List Char) :
    (name ++ ';' :: rest).takeWhile (· ≠ ';') = name ∧
      (name ++ ';' :: rest).dropWhile (· ≠ ';') = ';' :: rest := by
  have hname : ∀ c ∈ name, decide (c ≠ ';') = true := fun c hc =>
    decide_eq_true fun heq => h (heq ▸ hc)
  rw [List.takeWhile_append_of_pos hname, List.dropWhile_append_of_pos hname]
  simp

theorem className?_toList (name : ClassName) : className? name.text.toList = some name := by
  rw [className?, dif_pos ⟨name.nonempty, name.unmarked⟩]
  congr
  exact String.ofList_toList

theorem text_of_className? {cs : List Char} {name : ClassName} (h : className? cs = some name) :
    name.text.toList = cs := by
  unfold className? at h
  split at h
  case isTrue => exact Option.some.inj h ▸ String.toList_ofList
  case isFalse => cases h

theorem exists_className {cs : List Char} (nonempty : cs ≠ []) (unmarked : ';' ∉ cs) :
    ∃ name : ClassName, name.text.toList = cs := by
  have htext : (String.ofList cs).toList = cs := String.toList_ofList
  exact ⟨⟨String.ofList cs, by rwa [htext], by rwa [htext]⟩, htext⟩

theorem readField_letter (p : Primitive) (rest : List Char) :
    readField (p.letter :: rest) = .ok (.primitive p, rest) := by
  cases p <;> rfl

theorem readField_name (name : ClassName) (rest : List Char) :
    readField ('L' :: (name.text.toList ++ ';' :: rest)) = .ok (.reference name, rest) := by
  obtain ⟨htake, hdrop⟩ := takeWhile_dropWhile_mark name.unmarked rest
  rw [readField, htake, hdrop, className?_toList]

theorem chars_reference_append (name : ClassName) (rest : List Char) :
    (FieldType.reference name).chars ++ rest = 'L' :: (name.text.toList ++ ';' :: rest) := by
  rw [FieldType.chars, List.cons_append, List.cons_append, List.append_assoc]
  rfl

/-- A reader takes the characters of a type off the front. -/
theorem readField_chars (t : FieldType) (rest : List Char) :
    readField (t.chars ++ rest) = .ok (t, rest) := by
  induction t with
  | primitive p => exact readField_letter p rest
  | reference name =>
    rw [chars_reference_append]
    exact readField_name name rest
  | array element ih => rw [FieldType.chars, List.cons_append, readField, ih]

/-- What a reader takes are the characters of the type that it returns. -/
theorem chars_of_readField {cs rest : List Char} {t : FieldType}
    (h : readField cs = .ok (t, rest)) : cs = t.chars ++ rest := by
  induction cs generalizing t rest with
  | nil => cases h
  | cons c cs ih =>
    unfold readField at h
    split at h
    case h_1 => cases h
    case h_2 tail heq =>
      obtain ⟨rfl, rfl⟩ := List.cons.inj heq
      split at h
      case h_1 element rest' hread =>
        obtain ⟨rfl, rfl⟩ := Prod.mk.inj (Except.ok.inj h)
        rw [FieldType.chars, List.cons_append, ← ih hread]
      case h_2 => cases h
    case h_3 tail heq =>
      obtain ⟨rfl, rfl⟩ := List.cons.inj heq
      split at h
      case h_1 mark rest' name hdrop hname =>
        obtain ⟨rfl, rfl⟩ := Prod.mk.inj (Except.ok.inj h)
        have hmark : mark = ';' := by
          have := List.head?_dropWhile_not (· ≠ ';') cs
          rw [hdrop] at this
          simpa using this
        subst hmark
        rw [FieldType.chars, text_of_className? hname, List.cons_append, List.cons_append,
          List.append_assoc, List.singleton_append, ← hdrop, List.takeWhile_append_dropWhile]
      case h_2 => cases h
    case h_4 => cases h
    case h_5 d tail _ _ _ heq =>
      obtain ⟨rfl, rfl⟩ := List.cons.inj heq
      split at h
      case h_1 p hp =>
        obtain ⟨rfl, rfl⟩ := Prod.mk.inj (Except.ok.inj h)
        rw [FieldType.chars, Primitive.letter_of_ofLetter? hp, List.singleton_append]
      case h_2 => cases h

theorem readField_eq_ok_iff {cs rest : List Char} {t : FieldType} :
    readField cs = .ok (t, rest) ↔ cs = t.chars ++ rest :=
  ⟨chars_of_readField, fun h => h ▸ readField_chars t rest⟩

theorem chars_ne_nil (t : FieldType) : t.chars ≠ [] := by
  cases t <;> exact List.cons_ne_nil _ _

/-- No type starts with a letter for nothing or with a closing parenthesis. -/
theorem head_chars (t : FieldType) : ∃ c cs, t.chars = c :: cs ∧ c ≠ 'V' ∧ c ≠ ')' := by
  cases t with
  | primitive p => exact ⟨p.letter, [], rfl, by cases p <;> decide, by cases p <;> decide⟩
  | reference name => exact ⟨'L', _, rfl, by decide, by decide⟩
  | array element => exact ⟨'[', _, rfl, by decide, by decide⟩

/-! ## A result at the front -/

theorem readResult_eq_ok_iff {cs rest : List Char} {result : Option FieldType} :
    readResult cs = .ok (result, rest) ↔ cs = MethodType.resultChars result ++ rest := by
  unfold readResult
  split
  case h_1 tail =>
    constructor
    · intro h
      obtain ⟨rfl, rfl⟩ := Prod.mk.inj (Except.ok.inj h)
      rfl
    · intro h
      cases result with
      | none => rw [(List.cons.inj h).2]; rfl
      | some t =>
        obtain ⟨c, cs, hchars, hV, -⟩ := head_chars t
        rw [MethodType.resultChars, hchars] at h
        exact absurd (List.cons.inj h).1.symm hV
  case h_2 hV =>
    cases result with
    | none =>
      constructor
      · intro h
        split at h <;> cases h
      · intro h
        exact absurd h (hV rest)
    | some t =>
      rw [MethodType.resultChars, ← readField_eq_ok_iff]
      split
      case h_1 u rest' hread => simp [hread]
      case h_2 cause hread => simp [hread]

/-! ## A parameter list -/

theorem readParams_cons (t : FieldType) (rest : List Char) :
    readParams (t.chars ++ rest) =
      match readParams rest with
      | .error cause => .error cause
      | .ok none => .ok none
      | .ok (some (ts, rest)) => .ok (some (t :: ts, rest)) := by
  obtain ⟨c, cs, hchars, -, hclose⟩ := head_chars t
  have hread := readField_chars t rest
  rw [hchars, List.cons_append] at hread ⊢
  rw [readParams]
  · split
    case h_1 h => rw [hread] at h; cases h
    case h_2 h =>
      rw [hread] at h
      obtain ⟨rfl, rfl⟩ := Prod.mk.inj (Except.ok.inj h)
      rfl
  · exact hclose

theorem readParams_paramChars (ts : List FieldType) (rest : List Char) :
    readParams (MethodType.paramChars ts ++ ')' :: rest) = .ok (some (ts, rest)) := by
  induction ts with
  | nil =>
    rw [MethodType.paramChars, List.flatMap_nil, List.nil_append, readParams]
  | cons t ts ih =>
    rw [MethodType.paramChars, List.flatMap_cons, List.append_assoc, readParams_cons]
    rw [MethodType.paramChars] at ih
    rw [ih]

theorem paramChars_of_readParams {cs rest : List Char} {ts : List FieldType}
    (h : readParams cs = .ok (some (ts, rest))) :
    cs = MethodType.paramChars ts ++ ')' :: rest := by
  fun_induction readParams cs generalizing ts
  case case1 => cases h
  case case2 =>
    obtain ⟨rfl, rfl⟩ := Prod.mk.inj (Option.some.inj (Except.ok.inj h))
    rfl
  case case3 => cases h
  case case4 => cases h
  case case5 => cases h
  case case6 hread _ _ _ hparams ih =>
    obtain ⟨rfl, rfl⟩ := Prod.mk.inj (Option.some.inj (Except.ok.inj h))
    rw [chars_of_readField hread, ih hparams, MethodType.paramChars, MethodType.paramChars,
      List.flatMap_cons, List.append_assoc]

theorem readParams_eq_some_iff {cs rest : List Char} {ts : List FieldType} :
    readParams cs = .ok (some (ts, rest)) ↔ cs = MethodType.paramChars ts ++ ')' :: rest :=
  ⟨paramChars_of_readParams, fun h => h ▸ readParams_paramChars ts rest⟩

theorem resultChars_ne_nil (result : Option FieldType) : MethodType.resultChars result ≠ [] := by
  cases result with
  | none => exact List.cons_ne_nil _ _
  | some t => exact chars_ne_nil t

end Descriptor

open Descriptor

/-! ## Whole descriptors -/

theorem FieldType.text_eq_iff {t : FieldType} {s : String} : t.text = s ↔ s.toList = t.chars := by
  rw [text, ← String.toList_inj, String.toList_ofList, eq_comm]

theorem MethodType.text_eq_iff {m : MethodType} {s : String} :
    m.text = s ↔ s.toList = '(' :: paramChars m.params ++ ')' :: resultChars m.result := by
  rw [text, ← String.toList_inj, String.toList_ofList, eq_comm]

/-- A text is read as a field type exactly if it is the type's descriptor. -/
theorem FieldType.parse_eq_ok_iff {s : String} {t : FieldType} : parse s = .ok t ↔ t.text = s := by
  rw [text_eq_iff]
  constructor
  · intro h
    unfold parse at h
    split at h
    case isTrue => cases h
    case isFalse =>
      split at h
      case h_4 u hread =>
        obtain rfl := Except.ok.inj h
        have := readResult_eq_ok_iff.1 hread
        rwa [List.append_nil] at this
      all_goals cases h
  · intro h
    have hne : s.toList ≠ [] := h ▸ chars_ne_nil t
    have hread : readResult s.toList = .ok (some t, []) :=
      readResult_eq_ok_iff.2 (by rw [h, List.append_nil]; rfl)
    rw [parse, if_neg hne, hread]

/-- A text is read as a method type exactly if it is the type's descriptor. -/
theorem MethodType.parse_eq_ok_iff {s : String} {m : MethodType} :
    parse s = .ok m ↔ m.text = s := by
  rw [text_eq_iff]
  constructor
  · intro h
    unfold parse at h
    split at h
    case h_1 => cases h
    case h_2 rest hs =>
      split at h
      case h_4 params rest' _ hparams =>
        split at h
        case h_3 result hresult =>
          obtain rfl := Except.ok.inj h
          have := readResult_eq_ok_iff.1 hresult
          rw [List.append_nil] at this
          rw [hs, readParams_eq_some_iff.1 hparams, this]
          rfl
        all_goals cases h
      all_goals cases h
    case h_3 => cases h
  · intro h
    have hparams : readParams (paramChars m.params ++ ')' :: resultChars m.result) =
        .ok (some (m.params, resultChars m.result)) := readParams_paramChars _ _
    have hresult : readResult (resultChars m.result) = .ok (m.result, []) :=
      readResult_eq_ok_iff.2 (List.append_nil _).symm
    unfold parse
    rw [h, List.cons_append]
    simp only [hparams]
    obtain ⟨c, cs, hchars⟩ := List.exists_cons_of_ne_nil (resultChars_ne_nil m.result)
    rw [hchars] at hresult ⊢
    simp only [hresult]

/-! ## The grammar -/

/-- The text of a type, and how a value of the type travels. -/
inductive TypeText : List Char → Kind → Prop where
  /-- One of the letters of the primitive types. -/
  | letter (p : Primitive) : TypeText [p.letter] p
  /-- A class name between `L` and the mark that ends it. -/
  | name {cs : List Char} (nonempty : cs ≠ []) (unmarked : ';' ∉ cs) :
      TypeText ('L' :: cs ++ [';']) .object
  /-- An array of a type. -/
  | array {cs : List Char} {k : Kind} (element : TypeText cs k) : TypeText ('[' :: cs) .object

/-- The text of a result: of a type, or the letter for nothing. -/
def ResultText (cs : List Char) (k : Kind) : Prop := TypeText cs k ∨ cs = ['V'] ∧ k = .void

/-- A text is a list of types in parentheses and then a result. -/
structure MethodText (s : String) (params : List (List Char × Kind)) (result : List Char × Kind) :
    Prop where
  typeText : ∀ p ∈ params, TypeText p.1 p.2
  resultText : ResultText result.1 result.2
  eq : s.toList = '(' :: params.flatMap Prod.fst ++ ')' :: result.1

theorem typeText_chars (t : FieldType) : TypeText t.chars t.kind := by
  induction t with
  | primitive p => exact .letter p
  | reference name => exact .name name.nonempty name.unmarked
  | array element ih => exact .array ih

theorem TypeText.exists_fieldType {cs : List Char} {k : Kind} (h : TypeText cs k) :
    ∃ t : FieldType, t.chars = cs ∧ t.kind = k := by
  induction h with
  | letter p => exact ⟨.primitive p, rfl, rfl⟩
  | @name cs nonempty unmarked =>
    obtain ⟨name, rfl⟩ := exists_className nonempty unmarked
    exact ⟨.reference name, rfl, rfl⟩
  | array _ ih =>
    obtain ⟨t, rfl, -⟩ := ih
    exact ⟨.array t, rfl, rfl⟩

theorem resultText_chars (m : MethodType) :
    ResultText (MethodType.resultChars m.result) m.resultKind := by
  unfold MethodType.resultKind
  cases m.result with
  | none => exact .inr ⟨rfl, rfl⟩
  | some t => exact .inl (typeText_chars t)

theorem ResultText.exists_result {cs : List Char} {k : Kind} (h : ResultText cs k) :
    ∃ result : Option FieldType, MethodType.resultChars result = cs ∧
      ∀ params, (MethodType.mk params result).resultKind = k := by
  obtain h | ⟨rfl, rfl⟩ := h
  · obtain ⟨t, rfl, rfl⟩ := h.exists_fieldType
    exact ⟨some t, rfl, fun _ => rfl⟩
  · exact ⟨none, rfl, fun _ => rfl⟩

/-- The texts and kinds of types. -/
def paramTexts (ts : List FieldType) : List (List Char × Kind) := ts.map fun t => (t.chars, t.kind)

theorem flatMap_paramTexts (ts : List FieldType) :
    (paramTexts ts).flatMap Prod.fst = MethodType.paramChars ts := List.flatMap_map ..

theorem exists_paramTexts {params : List (List Char × Kind)}
    (h : ∀ p ∈ params, TypeText p.1 p.2) : ∃ ts, paramTexts ts = params := by
  induction params with
  | nil => exact ⟨[], rfl⟩
  | cons p params ih =>
    obtain ⟨t, hchars, hkind⟩ := (h p List.mem_cons_self).exists_fieldType
    obtain ⟨ts, rfl⟩ := ih fun q hq => h q (List.mem_cons_of_mem _ hq)
    exact ⟨t :: ts, by rw [paramTexts, List.map_cons, hchars, hkind]; rfl⟩

/-- The descriptor of a method type is split into the texts of its types. -/
theorem methodText_text (m : MethodType) :
    MethodText m.text (paramTexts m.params) (MethodType.resultChars m.result, m.resultKind) := by
  refine ⟨fun p hp => ?_, resultText_chars m, ?_⟩
  · obtain ⟨t, -, rfl⟩ := List.mem_map.1 hp
    exact typeText_chars t
  · rw [flatMap_paramTexts]
    exact MethodType.text_eq_iff.1 rfl

/-- Every split of a text into texts of types is that of a method type. -/
theorem MethodText.exists_methodType {s : String} {params : List (List Char × Kind)}
    {result : List Char × Kind} (h : MethodText s params result) :
    ∃ m : MethodType, m.text = s ∧ paramTexts m.params = params ∧
      (MethodType.resultChars m.result, m.resultKind) = result := by
  obtain ⟨ts, rfl⟩ := exists_paramTexts h.typeText
  obtain ⟨r, hchars, hkind⟩ := h.resultText.exists_result
  refine ⟨⟨ts, r⟩, ?_, rfl, Prod.ext hchars (hkind ts)⟩
  rw [MethodType.text_eq_iff, h.eq, flatMap_paramTexts, hchars]

/-- Method types are told apart by their descriptors. -/
theorem MethodType.text_injective {m n : MethodType} (h : m.text = n.text) : m = n := by
  have hm := parse_eq_ok_iff.2 h
  rw [parse_eq_ok_iff.2 (rfl : n.text = n.text)] at hm
  exact (Except.ok.inj hm).symm

/-- A split of a text is the one that the method type read from it has. -/
theorem MethodText.eq_of_parse {s : String} {params : List (List Char × Kind)}
    {result : List Char × Kind} {m : MethodType} (h : MethodText s params result)
    (hm : MethodType.parse s = .ok m) :
    params = paramTexts m.params ∧ result = (MethodType.resultChars m.result, m.resultKind) := by
  obtain ⟨n, hn, hparams, hresult⟩ := h.exists_methodType
  obtain rfl := MethodType.text_injective (hn.trans (MethodType.parse_eq_ok_iff.1 hm).symm)
  exact ⟨hparams.symm, hresult.symm⟩

theorem FieldType.className?_of_chars {t : FieldType} {name : List Char}
    (h : t.chars = 'L' :: name ++ [';']) : t.className? = some (String.ofList name) := by
  cases t with
  | primitive p =>
    have := congrArg List.length h
    simp [chars] at this
  | array element => cases h
  | reference n =>
    obtain rfl := (List.append_left_inj [';']).1 (List.cons.inj h).2
    rw [className?, String.ofList_toList]

theorem FieldType.className?_of_head {t : FieldType} (h : t.chars.head? = some '[') :
    t.className? = some t.text := by
  cases t with
  | primitive p => cases p <;> cases h
  | reference n => cases h
  | array element => rfl

end GuestBoundary
