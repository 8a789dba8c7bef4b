import GuestBoundary.Native.Symbol
import GuestBoundary.Proofs.Descriptor.Grammar
import Mathlib.Data.List.TakeWhile

/-!
# Parameters up to the first parenthesis

`MethodType.paramText` takes what is in front of the first closing parenthesis for the parameters.
A class name may hold a parenthesis itself, so of a parameter list only a part is taken: `cut` says
which one.  Two parameter lists have one text exactly if they are cut to the same part
(`paramText_eq_iff`), since the part that is left of a type is not the text of any type.
-/

namespace GuestBoundary

open Descriptor

/-- The characters in front of the first closing parenthesis. -/
def upToClose (cs : List Char) : List Char := cs.takeWhile (· ≠ ')')

theorem upToClose_eq_self_iff {cs : List Char} : upToClose cs = cs ↔ ')' ∉ cs := by
  rw [upToClose, List.takeWhile_eq_self_iff]
  simp only [decide_eq_true_eq, ne_eq]
  exact ⟨fun h hmem => h _ hmem rfl, fun h c hc he => h (he ▸ hc)⟩

/-- Nothing behind a parenthesis is taken. -/
theorem upToClose_append_of_mem {cs : List Char} (h : ')' ∈ cs) (rest : List Char) :
    upToClose (cs ++ rest) = upToClose cs := by
  unfold upToClose
  induction cs with
  | nil => cases h
  | cons c cs ih =>
    rw [List.cons_append, List.takeWhile_cons, List.takeWhile_cons]
    split
    case isTrue hc =>
      have hne : ')' ≠ c := fun he => of_decide_eq_true hc he.symm
      rw [ih ((List.mem_cons.1 h).resolve_left hne)]
    case isFalse => rfl

theorem upToClose_append_of_notMem {cs : List Char} (h : ')' ∉ cs) (rest : List Char) :
    upToClose (cs ++ rest) = cs ++ upToClose rest :=
  List.takeWhile_append_of_pos fun _ hc => decide_eq_true fun he => h (he ▸ hc)

namespace FieldType

/-- What is left of a type whose text holds a parenthesis is not the beginning of any text in which
a type can be read. -/
theorem readField_upToClose {t : FieldType} (h : ')' ∈ t.chars) (u : FieldType)
    (rest : List Char) : readField (upToClose t.chars) ≠ .ok (u, rest) := by
  unfold upToClose
  induction t generalizing u rest with
  | primitive p => cases p <;> exact absurd h (by decide)
  | reference name =>
    have hname : ';' ∉ (name.text.toList ++ [';']).takeWhile (· ≠ ')') := by
      intro hmem
      have hclose : ')' ∈ name.text.toList := by simpa [chars] using h
      have := upToClose_append_of_mem hclose [';']
      rw [upToClose] at this
      rw [this] at hmem
      exact name.unmarked ((List.takeWhile_sublist _).subset hmem)
    have hdrop : ((name.text.toList ++ [';']).takeWhile (· ≠ ')')).dropWhile (· ≠ ';') = [] :=
      List.dropWhile_eq_nil_iff.2 fun c hc => decide_eq_true fun he => hname (he ▸ hc)
    rw [chars, List.cons_append, List.takeWhile_cons_of_pos (by decide), readField, hdrop]
    intro hread
    cases hread
  | array element ih =>
    have helement : ')' ∈ element.chars := (List.mem_cons.1 h).resolve_left (by decide)
    rw [chars, List.takeWhile_cons_of_pos (by decide), readField]
    split
    case h_1 v rest' hread => exact absurd hread (ih helement v rest')
    case h_2 =>
      intro hread
      cases hread

end FieldType

namespace MethodType

/-- What is taken of a parameter list: the parameters in front of the first one whose text holds a
parenthesis, and what that text has in front of it. -/
def cut : List FieldType → List FieldType × List Char
  | [] => ([], [])
  | t :: ts => if ')' ∈ t.chars then ([], upToClose t.chars) else (t :: (cut ts).1, (cut ts).2)

theorem cut_eq_self {ts : List FieldType} (h : ∀ t ∈ ts, ')' ∉ t.chars) : cut ts = (ts, []) := by
  induction ts with
  | nil => rfl
  | cons t ts ih =>
    obtain ⟨ht, hts⟩ := List.forall_mem_cons.1 h
    rw [cut, if_neg ht, ih hts]

/-- Something is left of a type whose text holds a parenthesis, which is not where it starts. -/
theorem cut_snd_eq_nil_iff {ts : List FieldType} :
    (cut ts).2 = [] ↔ ∀ t ∈ ts, ')' ∉ t.chars := by
  constructor
  · intro h
    induction ts with
    | nil => nofun
    | cons t ts ih =>
      rw [cut] at h
      split at h
      case isTrue =>
        obtain ⟨c, cs, hchars, -, hclose⟩ := head_chars t
        have hhead : upToClose (c :: cs) = c :: upToClose cs :=
          List.takeWhile_cons_of_pos (decide_eq_true hclose)
        rw [hchars, hhead] at h
        cases h
      case isFalse ht => exact List.forall_mem_cons.2 ⟨ht, ih h⟩
  · intro h
    rw [cut_eq_self h]

theorem upToClose_paramChars (ts : List FieldType) :
    upToClose (paramChars ts) = paramChars (cut ts).1 ++ (cut ts).2 := by
  induction ts with
  | nil => rfl
  | cons t ts ih =>
    rw [paramChars] at ih
    rw [paramChars, List.flatMap_cons, cut]
    split
    case isTrue h => exact upToClose_append_of_mem h _
    case isFalse h =>
      rw [upToClose_append_of_notMem h, ih, paramChars, paramChars, List.flatMap_cons,
        List.append_assoc]

/-- No type can be read in what is left of the last parameter. -/
theorem readField_cut (ts : List FieldType) (u : FieldType) (rest : List Char) :
    readField (cut ts).2 ≠ .ok (u, rest) := by
  induction ts with
  | nil => nofun
  | cons t ts ih =>
    rw [cut]
    split
    case isTrue h => exact FieldType.readField_upToClose h u rest
    case isFalse => exact ih

/-- Parameters are read off the front as long as there are any. -/
theorem paramChars_append_inj {ts us : List FieldType} {cs ds : List Char}
    (hcs : ∀ t rest, readField cs ≠ .ok (t, rest)) (hds : ∀ t rest, readField ds ≠ .ok (t, rest))
    (h : paramChars ts ++ cs = paramChars us ++ ds) : ts = us ∧ cs = ds := by
  induction ts generalizing us with
  | nil =>
    cases us with
    | nil => exact ⟨rfl, h⟩
    | cons u us =>
      rw [paramChars, paramChars, List.flatMap_nil, List.nil_append, List.flatMap_cons,
        List.append_assoc] at h
      exact absurd (readField_eq_ok_iff.2 h) (hcs _ _)
  | cons t ts ih =>
    rw [paramChars, List.flatMap_cons, List.append_assoc] at h
    cases us with
    | nil =>
      rw [paramChars, List.flatMap_nil, List.nil_append] at h
      exact absurd (readField_eq_ok_iff.2 h.symm) (hds _ _)
    | cons u us =>
      rw [paramChars, List.flatMap_cons, List.append_assoc] at h
      have hread := readField_chars t (paramChars ts ++ cs)
      rw [paramChars, h, readField_chars] at hread
      obtain ⟨rfl, hrest⟩ := Prod.mk.inj (Except.ok.inj hread)
      obtain ⟨rfl, rfl⟩ := ih hrest.symm
      exact ⟨rfl, rfl⟩

theorem toList_paramText (m : MethodType) :
    m.paramText.toList = upToClose (paramChars m.params) := by
  rw [paramText, String.toList_ofList, text, String.toList_ofList, List.cons_append, List.drop_one,
    List.tail_cons]
  by_cases h : ')' ∈ paramChars m.params
  case pos => exact upToClose_append_of_mem h _
  case neg =>
    rw [upToClose_eq_self_iff.2 h]
    exact (upToClose_append_of_notMem h _).trans (List.append_nil _)

/-- Parameter lists have one text if they are cut to the same part. -/
theorem paramText_eq_iff {m n : MethodType} :
    m.paramText = n.paramText ↔ cut m.params = cut n.params := by
  rw [← String.toList_inj, toList_paramText, toList_paramText, upToClose_paramChars,
    upToClose_paramChars]
  constructor
  · intro h
    obtain ⟨hfront, hrest⟩ := paramChars_append_inj (readField_cut _) (readField_cut _) h
    exact Prod.ext hfront hrest
  · intro h
    rw [h]

/-- The texts of the parameter types, one after the other. -/
def joinedParams (m : MethodType) : String := String.join (m.params.map FieldType.text)

theorem toList_joinedParams (m : MethodType) : m.joinedParams.toList = paramChars m.params := by
  rw [joinedParams, String.toList_join, List.flatMap_map, paramChars]
  simp only [FieldType.text, String.toList_ofList]

theorem paramText_eq_joinedParams_iff {m : MethodType} :
    m.paramText = m.joinedParams ↔ ∀ t ∈ m.params, ')' ∉ t.chars := by
  rw [← String.toList_inj, toList_paramText, toList_joinedParams, upToClose_eq_self_iff, paramChars,
    List.mem_flatMap, not_exists]
  exact forall_congr' fun t => not_and

theorem text_eq_joinedParams (m : MethodType) :
    m.text = "(" ++ m.joinedParams ++ ")" ++ m.resultText := by
  rw [text_eq_iff]
  simp [toList_joinedParams, resultText]

/-- The text of the parameters is that of the types, and the descriptor is put together from it,
exactly if no parameter type holds a parenthesis.  Two descriptors have one such text exactly if
their parameter lists are cut to the same part, so lists that differ have texts that differ as soon
as one of them holds no parenthesis. -/
theorem paramText_faithful_iff {s : String} {m : MethodType} (h : parse s = .ok m) :
    (m.paramText = m.joinedParams ↔ ∀ t ∈ m.params, ')' ∉ t.chars) ∧
    (s = "(" ++ m.paramText ++ ")" ++ m.resultText ↔ ∀ t ∈ m.params, ')' ∉ t.chars) ∧
    ∀ s' n, parse s' = .ok n →
      (m.paramText = n.paramText ↔ cut m.params = cut n.params) ∧
      ((∀ t ∈ m.params, ')' ∉ t.chars) → m.params ≠ n.params → m.paramText ≠ n.paramText) := by
  have hs := parse_eq_ok_iff.1 h
  refine ⟨paramText_eq_joinedParams_iff, ?_, fun s' n _ => ⟨paramText_eq_iff, ?_⟩⟩
  · rw [← paramText_eq_joinedParams_iff, ← hs, text_eq_joinedParams, String.append_left_inj,
      String.append_left_inj, String.append_right_inj, eq_comm]
  · intro hclear hne heq
    have hcut := paramText_eq_iff.1 heq
    rw [cut_eq_self hclear] at hcut
    -- Nothing is left over of the other list either.
    have hclear' := cut_snd_eq_nil_iff.1 (congrArg Prod.snd hcut).symm
    rw [cut_eq_self hclear'] at hcut
    exact hne (congrArg Prod.fst hcut)

/-- A method type that takes an array of numbers and one class, and has no result. -/
def takingClass (name : ClassName) : MethodType :=
  ⟨[.array (.primitive .int), .reference name], none⟩

/-- A class `L` and a class `L)`: the text of the first parameter list is that of its types, the
text of the second one is not, and they differ. -/
theorem paramText_faithful_without_parenthesis :
    ∃ m n, parse "([ILL;)V" = .ok m ∧ parse "([ILL);)V" = .ok n ∧
      m.paramText = m.joinedParams ∧ n.paramText ≠ n.joinedParams ∧ m.paramText ≠ n.paramText := by
  let m := takingClass ⟨"L", by decide, by decide⟩
  let n := takingClass ⟨"L)", by decide, by decide⟩
  have hm : parse "([ILL;)V" = .ok m := parse_eq_ok_iff.2 (by decide)
  have hn : parse "([ILL);)V" = .ok n := parse_eq_ok_iff.2 (by decide)
  have hclear : ∀ t ∈ m.params, ')' ∉ t.chars := by decide
  have hmarked : ¬ ∀ t ∈ n.params, ')' ∉ t.chars := by decide
  obtain ⟨hjoined, -, hpair⟩ := paramText_faithful_iff hm
  refine ⟨m, n, hm, hn, hjoined.2 hclear, mt (paramText_faithful_iff hn).1.1 hmarked, ?_⟩
  exact (hpair _ n hn).2 hclear (by decide)

/-- Of a class `a)b` the parameters keep only what is in front of the parenthesis.  So a class `a)c`
has the same text, and overloads for the two classes have one symbol. -/
theorem paramText_not_faithful :
    ∃ m n, parse "(La)b;)V" = .ok m ∧ parse "(La)c;)V" = .ok n ∧ m.params ≠ n.params ∧
      m.paramText ≠ m.joinedParams ∧ m.paramText = n.paramText ∧
      ∀ c method, Symbol.longName c method m = Symbol.longName c method n := by
  let m : MethodType := ⟨[.reference ⟨"a)b", by decide, by decide⟩], none⟩
  let n : MethodType := ⟨[.reference ⟨"a)c", by decide, by decide⟩], none⟩
  have htext : m.paramText = n.paramText := paramText_eq_iff.2 (by decide)
  refine ⟨m, n, parse_eq_ok_iff.2 (by decide), parse_eq_ok_iff.2 (by decide), by decide, ?_, htext,
    fun c method => ?_⟩
  · exact mt paramText_eq_joinedParams_iff.1 (by decide)
  · rw [Symbol.longName, htext, Symbol.longName]

end MethodType

end GuestBoundary
