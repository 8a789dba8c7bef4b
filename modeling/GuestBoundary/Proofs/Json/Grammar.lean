import GuestBoundary.Json
import Mathlib.Tactic.Tauto

/-!
# The grammar of JSON

`Spells` lists the forms that values, items and members have, with blanks wherever they may stand,
and `Holds` is a value with blanks around it.  The reader is held to them from both sides: it reads
what the grammar allows (`Spells.reads`, by induction on the grammar), and what it reads the grammar
allows (`readsSpelled`, by induction on the depth that the reader is given).  So it reads a value
of a text exactly if the text holds that value (`parse?_eq_some_iff`).
-/

namespace GuestBoundary.Json

/-! ## The forms -/

/-- Nothing but blanks. -/
def Blank (cs : List Char) : Prop := ∀ c ∈ cs, isBlank c = true

/-- Nothing but digits, and at least one. -/
def Digits (cs : List Char) : Prop := cs ≠ [] ∧ ∀ c ∈ cs, isDigit c = true

/-- The rest of a string behind its opening quote, with the closing one. -/
inductive SpellsString : List Char → List Text.Unit16 → Prop where
  | close : SpellsString ['"'] []
  /-- A unit of four hexadecimal digits. -/
  | unit {a b c d : Char} {u : Text.Unit16} {cs : List Char} {us : List Text.Unit16}
    (digits : hexUnit? a b c d = some u) (more : SpellsString cs us) :
    SpellsString ('\\' :: 'u' :: a :: b :: c :: d :: cs) (u :: us)
  | escape {e : Char} {u : Text.Unit16} {cs : List Char} {us : List Text.Unit16}
    (letter : escapeUnit? e = some u) (more : SpellsString cs us) :
    SpellsString ('\\' :: e :: cs) (u :: us)
  /-- A character that stands for itself. -/
  | plain {c : Char} {cs : List Char} {us : List Text.Unit16} (quote : c ≠ '"')
    (backslash : c ≠ '\\') (control : 0x20 ≤ c.toNat) (more : SpellsString cs us) :
    SpellsString (c :: cs) (Text.codePointUnits c.toNat ++ us)

/-- A point with digits behind it, or nothing. -/
inductive SpellsFraction : List Char → Option (List Char) → Prop where
  | absent : SpellsFraction [] none
  | present {ds : List Char} (digits : Digits ds) : SpellsFraction ('.' :: ds) (some ds)

/-- An exponent mark with digits behind it, with or without a sign, or nothing. -/
inductive SpellsExponent : List Char → Option (List Char) → Prop where
  | absent : SpellsExponent [] none
  | unsigned {mark : Char} {ds : List Char} (letter : mark = 'e' ∨ mark = 'E')
    (digits : Digits ds) : SpellsExponent (mark :: ds) (some ds)
  | signed {mark sign : Char} {ds : List Char} (letter : mark = 'e' ∨ mark = 'E')
    (plusMinus : sign = '+' ∨ sign = '-') (digits : Digits ds) :
    SpellsExponent (mark :: sign :: ds) (some (sign :: ds))

/-- A number; a zero does not start a longer one. -/
inductive SpellsNumber : List Char → JsonNumber → Prop where
  | mk (negative : Bool) {ds fs es : List Char} {fraction exponent : Option (List Char)}
    (whole : Digits ds) (zero : ds.head? = some '0' → ds.length = 1)
    (behind : SpellsFraction fs fraction) (scale : SpellsExponent es exponent) :
    SpellsNumber ((if negative then ['-'] else []) ++ (ds ++ (fs ++ es)))
      ⟨negative, digitsValue ds, fraction, exponent⟩

/-- What a stretch of a text stands for. -/
inductive Phrase where
  | value (j : Json)
  /-- The items of an array up to its end, at least one. -/
  | items (items : List Json)
  /-- The members of an object up to its end, at least one. -/
  | members (members : List (List Text.Unit16 × Json))

/-- How phrases are written.  A value starts with no blank and ends with none. -/
inductive Spells : Phrase → List Char → Prop where
  | null : Spells (.value null) ['n', 'u', 'l', 'l']
  | truth : Spells (.value (boolean true)) ['t', 'r', 'u', 'e']
  | falsehood : Spells (.value (boolean false)) ['f', 'a', 'l', 's', 'e']
  | number {n : JsonNumber} {cs : List Char} (spelled : SpellsNumber cs n) :
    Spells (.value (number n)) cs
  | string {us : List Text.Unit16} {cs : List Char} (spelled : SpellsString cs us) :
    Spells (.value (string us)) ('"' :: cs)
  | noItems {b : List Char} (blank : Blank b) : Spells (.value (array [])) ('[' :: (b ++ [']']))
  | array {items : List Json} {cs : List Char} (spelled : Spells (.items items) cs) :
    Spells (.value (array items)) ('[' :: cs)
  | noMembers {b : List Char} (blank : Blank b) :
    Spells (.value (object [])) ('{' :: (b ++ ['}']))
  | object {members : List (List Text.Unit16 × Json)} {cs : List Char}
    (spelled : Spells (.members members) cs) : Spells (.value (object members)) ('{' :: cs)
  | lastItem {j : Json} {b b' cs : List Char} (before : Blank b) (value : Spells (.value j) cs)
    (behind : Blank b') : Spells (.items [j]) (b ++ (cs ++ (b' ++ [']'])))
  | item {j : Json} {items : List Json} {b b' cs rest : List Char} (before : Blank b)
    (value : Spells (.value j) cs) (behind : Blank b') (more : Spells (.items items) rest) :
    Spells (.items (j :: items)) (b ++ (cs ++ (b' ++ ',' :: rest)))
  | lastMember {key : List Text.Unit16} {j : Json} {b₁ b₂ b₃ b₄ ks cs : List Char}
    (before : Blank b₁) (quoted : SpellsString ks key) (between : Blank b₂)
    (between' : Blank b₃) (value : Spells (.value j) cs) (behind : Blank b₄) :
    Spells (.members [(key, j)])
      (b₁ ++ '"' :: (ks ++ (b₂ ++ ':' :: (b₃ ++ (cs ++ (b₄ ++ ['}']))))))
  | member {key : List Text.Unit16} {j : Json} {members : List (List Text.Unit16 × Json)}
    {b₁ b₂ b₃ b₄ ks cs rest : List Char} (before : Blank b₁) (quoted : SpellsString ks key)
    (between : Blank b₂) (between' : Blank b₃) (value : Spells (.value j) cs) (behind : Blank b₄)
    (more : Spells (.members members) rest) :
    Spells (.members ((key, j) :: members))
      (b₁ ++ '"' :: (ks ++ (b₂ ++ ':' :: (b₃ ++ (cs ++ (b₄ ++ ',' :: rest))))))

/-- The text is a value with blanks around it. -/
def Holds (text : String) (j : Json) : Prop :=
  ∃ b cs b', Blank b ∧ Spells (.value j) cs ∧ Blank b' ∧ text.toList = b ++ (cs ++ b')

variable {cs ds rest : List Char} {us : List Text.Unit16} {n : JsonNumber} {j : Json}

/-! ## Blanks -/

theorem skipBlank_append {b : List Char} (hb : Blank b) (cs : List Char) :
    skipBlank (b ++ cs) = skipBlank cs := List.dropWhile_append_of_pos hb

theorem skipBlank_cons {c : Char} (hc : isBlank c = false) (cs : List Char) :
    skipBlank (c :: cs) = c :: cs := by
  rw [skipBlank, List.dropWhile_cons_of_neg (by rw [hc]; exact Bool.false_ne_true)]

theorem skipBlank_append_cons {b : List Char} (hb : Blank b) {c : Char} (hc : isBlank c = false)
    (cs : List Char) : skipBlank (b ++ c :: cs) = c :: cs := by
  rw [skipBlank_append hb, skipBlank_cons hc]

theorem skipBlank_of_blank (hb : Blank cs) : skipBlank cs = [] := by
  have := skipBlank_append hb []
  rwa [List.append_nil] at this

/-- What was skipped are blanks. -/
theorem exists_skipBlank (cs : List Char) : ∃ b, Blank b ∧ cs = b ++ skipBlank cs :=
  ⟨cs.takeWhile isBlank, List.all_eq_true.1 List.all_takeWhile,
    List.takeWhile_append_dropWhile.symm⟩

@[simp] theorem skipBlank_skipBlank (cs : List Char) : skipBlank (skipBlank cs) = skipBlank cs := by
  obtain ⟨b, hb, heq⟩ := exists_skipBlank cs
  exact (skipBlank_append hb (skipBlank cs)).symm.trans (congrArg skipBlank heq.symm)

/-! ## Strings -/

theorem readString_append (h : SpellsString cs us) (rest : List Char) :
    readString (cs ++ rest) = some (us, rest) := by
  induction h with
  | close => rfl
  | unit digits _ ih =>
    simp only [List.cons_append]
    rw [readString, digits]
    simp [ih]
  | @escape e _ _ _ letter _ ih =>
    have he : e ≠ 'u' := by
      rintro rfl
      cases letter
    simp only [List.cons_append]
    rw [readString, letter]
    · simp [ih]
    · exact fun _ _ _ _ _ h _ => he h
  | plain quote backslash control _ ih =>
    simp only [List.cons_append]
    rw [readString, if_neg (by omega)]
    · simp [ih]
    · exact quote
    · exact fun _ _ _ _ _ h _ => backslash h
    · exact fun _ _ h _ => backslash h

theorem spells_of_readString (h : readString cs = some (us, rest)) :
    ∃ s, SpellsString s us ∧ cs = s ++ rest := by
  fun_induction readString cs generalizing us with
  | case1 => cases h
  | case2 rest' =>
    cases h
    exact ⟨_, .close, rfl⟩
  | case3 a b c d rest' ih =>
    simp only [Option.bind_eq_bind, Option.bind_eq_some_iff] at h
    obtain ⟨u, hu, ⟨us', _⟩, hread, h⟩ := h
    cases h
    obtain ⟨s, hs, rfl⟩ := ih hread
    exact ⟨_, .unit hu hs, rfl⟩
  | case4 e rest' _ ih =>
    simp only [Option.bind_eq_bind, Option.bind_eq_some_iff] at h
    obtain ⟨u, hu, ⟨us', _⟩, hread, h⟩ := h
    cases h
    obtain ⟨s, hs, rfl⟩ := ih hread
    exact ⟨_, .escape hu hs, rfl⟩
  | case5 => cases h
  | case6 c rest' quote _ escape control ih =>
    simp only [Option.bind_eq_bind, Option.bind_eq_some_iff] at h
    obtain ⟨⟨us', _⟩, hread, h⟩ := h
    cases h
    have backslash : c ≠ '\\' := by
      rintro rfl
      cases rest' with
      | nil => cases hread
      | cons e more => exact escape e more rfl rfl
    obtain ⟨s, hs, rfl⟩ := ih hread
    exact ⟨_, .plain quote backslash (Nat.le_of_not_lt control) hs, rfl⟩

/-! ## Numbers -/

/-- What comes next does not belong to a number. -/
def Ends (rest : List Char) : Prop :=
  ∀ c ∈ rest.head?, isDigit c = false ∧ c ≠ '.' ∧ c ≠ 'e' ∧ c ≠ 'E'

theorem readDigits_append (h : Digits ds) (hrest : ∀ c ∈ rest.head?, isDigit c = false) :
    readDigits (ds ++ rest) = some (ds, rest) := by
  have hstop : rest.takeWhile isDigit = [] ∧ rest.dropWhile isDigit = rest := by
    cases rest with
    | nil => exact ⟨rfl, rfl⟩
    | cons c rest => simp [hrest c rfl]
  rw [readDigits, List.takeWhile_append_of_pos h.2, List.dropWhile_append_of_pos h.2, hstop.1,
    hstop.2, List.append_nil]
  cases ds with
  | nil => exact absurd rfl h.1
  | cons d ds => rfl

theorem spells_of_readDigits (h : readDigits cs = some (ds, rest)) :
    Digits ds ∧ cs = ds ++ rest := by
  rw [readDigits] at h
  split at h
  case h_1 => cases h
  case h_2 hne =>
    cases h
    exact ⟨⟨hne, List.all_eq_true.1 List.all_takeWhile⟩, List.takeWhile_append_dropWhile.symm⟩

theorem readFraction_append {fraction : Option (List Char)} (h : SpellsFraction cs fraction)
    (hrest : ∀ c ∈ rest.head?, isDigit c = false ∧ c ≠ '.') :
    readFraction (cs ++ rest) = some (fraction, rest) := by
  cases h with
  | absent =>
    rw [List.nil_append, readFraction]
    rintro _ rfl
    exact (hrest '.' rfl).2 rfl
  | present digits =>
    rw [List.cons_append, readFraction, readDigits_append digits fun c hc => (hrest c hc).1]
    rfl

theorem spells_of_readFraction {fraction : Option (List Char)}
    (h : readFraction cs = some (fraction, rest)) :
    ∃ fs, SpellsFraction fs fraction ∧ cs = fs ++ rest := by
  unfold readFraction at h
  split at h
  case h_1 cs =>
    obtain ⟨⟨ds, _⟩, hread, h⟩ := Option.map_eq_some_iff.1 h
    cases h
    obtain ⟨digits, rfl⟩ := spells_of_readDigits hread
    exact ⟨_, .present digits, rfl⟩
  case h_2 =>
    cases h
    exact ⟨[], .absent, rfl⟩

theorem readExponent_append {exponent : Option (List Char)} (h : SpellsExponent cs exponent)
    (hrest : ∀ c ∈ rest.head?, isDigit c = false ∧ c ≠ 'e' ∧ c ≠ 'E') :
    readExponent (cs ++ rest) = some (exponent, rest) := by
  have hdigits : ∀ {ds}, Digits ds → readDigits (ds ++ rest) = some (ds, rest) :=
    fun digits => readDigits_append digits fun c hc => (hrest c hc).1
  cases h with
  | absent =>
    cases rest with
    | nil => rfl
    | cons c rest =>
      have hc := (hrest c rfl).2
      rw [List.nil_append]
      unfold readExponent
      exact if_neg (not_or.2 hc)
  | @unsigned mark ds letter digits =>
    have hsign : ∀ sign more, ds ++ rest = sign :: more → sign ≠ '+' ∧ sign ≠ '-' := by
      intro sign more heq
      obtain ⟨d, ds, rfl⟩ := List.exists_cons_of_ne_nil digits.1
      have hd := digits.2 d List.mem_cons_self
      obtain rfl := (List.cons.inj heq).1
      constructor <;> rintro rfl <;> cases hd
    rw [List.cons_append, readExponent, if_pos letter, hdigits digits]
    · rfl
    · exact fun _ heq => (hsign _ _ heq).1 rfl
    · exact fun _ heq => (hsign _ _ heq).2 rfl
  | signed letter plusMinus digits =>
    rcases plusMinus with rfl | rfl
    all_goals
      simp only [List.cons_append]
      rw [readExponent, if_pos letter, hdigits digits]
      rfl

theorem spells_of_readExponent {exponent : Option (List Char)}
    (h : readExponent cs = some (exponent, rest)) :
    ∃ es, SpellsExponent es exponent ∧ cs = es ++ rest := by
  have hdigits : ∀ (make : List Char → List Char) {cs},
      (readDigits cs).map (fun x => (some (make x.1), x.2)) = some (exponent, rest) →
        ∃ ds, Digits ds ∧ exponent = some (make ds) ∧ cs = ds ++ rest := by
    intro make cs h
    obtain ⟨⟨ds, _⟩, hread, h⟩ := Option.map_eq_some_iff.1 h
    cases h
    obtain ⟨digits, rfl⟩ := spells_of_readDigits hread
    exact ⟨ds, digits, rfl, rfl⟩
  unfold readExponent at h
  split at h
  case h_1 =>
    cases h
    exact ⟨[], .absent, rfl⟩
  case h_2 mark cs =>
    split at h
    case isTrue letter =>
      split at h
      case h_1 =>
        obtain ⟨ds, digits, rfl, rfl⟩ := hdigits _ h
        exact ⟨_, .signed letter (.inl rfl) digits, rfl⟩
      case h_2 =>
        obtain ⟨ds, digits, rfl, rfl⟩ := hdigits _ h
        exact ⟨_, .signed letter (.inr rfl) digits, rfl⟩
      case h_3 =>
        obtain ⟨ds, digits, rfl, rfl⟩ := hdigits id h
        exact ⟨_, .unsigned letter digits, rfl⟩
    case isFalse =>
      cases h
      exact ⟨[], .absent, rfl⟩

theorem SpellsExponent.head {exponent : Option (List Char)} (h : SpellsExponent cs exponent)
    (hrest : Ends rest) : ∀ c ∈ (cs ++ rest).head?, isDigit c = false ∧ c ≠ '.' := by
  cases h with
  | absent => exact fun c hc => ⟨(hrest c hc).1, (hrest c hc).2.1⟩
  | unsigned letter _ =>
    rintro c ⟨⟩
    rcases letter with rfl | rfl <;> exact ⟨rfl, by decide⟩
  | signed letter _ _ =>
    rintro c ⟨⟩
    rcases letter with rfl | rfl <;> exact ⟨rfl, by decide⟩

theorem SpellsFraction.head {fraction : Option (List Char)} (h : SpellsFraction cs fraction)
    (hrest : ∀ c ∈ rest.head?, isDigit c = false) :
    ∀ c ∈ (cs ++ rest).head?, isDigit c = false := by
  cases h with
  | absent => exact hrest
  | present _ =>
    rintro c ⟨⟩
    rfl

/-- A number starts with a minus or with a digit. -/
theorem SpellsNumber.head (h : SpellsNumber cs n) :
    ∃ c more, cs = c :: more ∧ (c = '-' ∨ isDigit c = true) := by
  obtain ⟨negative, whole, -, -, -⟩ := h
  rename_i ds fs es _ _
  cases negative with
  | true => exact ⟨'-', ds ++ (fs ++ es), rfl, .inl rfl⟩
  | false =>
    obtain ⟨d, ds, rfl⟩ := List.exists_cons_of_ne_nil whole.1
    exact ⟨d, ds ++ (fs ++ es), rfl, .inr (whole.2 d List.mem_cons_self)⟩

theorem readNumber_append (h : SpellsNumber cs n) (hrest : Ends rest) :
    readNumber (cs ++ rest) = some (n, rest) := by
  obtain ⟨negative, whole, zero, behind, scale⟩ := h
  rename_i ds fs es fraction exponent
  have hscale := scale.head hrest
  have hunsigned : readUnsigned negative (ds ++ (fs ++ (es ++ rest))) =
      some (⟨negative, digitsValue ds, fraction, exponent⟩, rest) := by
    rw [readUnsigned, readDigits_append whole (behind.head fun c hc => (hscale c hc).1)]
    simp only [Option.bind_eq_bind, Option.bind_some]
    rw [if_neg (by tauto), readFraction_append behind hscale]
    simp only [Option.bind_some]
    rw [readExponent_append scale fun c hc => ⟨(hrest c hc).1, (hrest c hc).2.2⟩]
    rfl
  cases negative with
  | true => simpa [readNumber] using hunsigned
  | false =>
    simp only [Bool.false_eq_true, if_false, List.nil_append, List.append_assoc]
    rw [readNumber, hunsigned]
    obtain ⟨d, ds, rfl⟩ := List.exists_cons_of_ne_nil whole.1
    have hd := whole.2 d List.mem_cons_self
    rintro more heq
    obtain rfl := (List.cons.inj heq).1
    cases hd

theorem spells_of_readNumber (h : readNumber cs = some (n, rest)) :
    ∃ s, SpellsNumber s n ∧ cs = s ++ rest := by
  have hunsigned : ∀ negative cs, readUnsigned negative cs = some (n, rest) →
      ∃ s, SpellsNumber ((if negative then ['-'] else []) ++ s) n ∧ cs = s ++ rest := by
    intro negative cs h
    simp only [readUnsigned, Option.bind_eq_bind, Option.bind_eq_some_iff] at h
    obtain ⟨⟨ds, more⟩, hwhole, h⟩ := h
    obtain ⟨whole, rfl⟩ := spells_of_readDigits hwhole
    split at h
    case isTrue => cases h
    case isFalse zero =>
      obtain ⟨⟨fraction, more⟩, hfraction, h⟩ := Option.bind_eq_some_iff.1 h
      obtain ⟨⟨exponent, more⟩, hexponent, h⟩ := Option.bind_eq_some_iff.1 h
      cases h
      obtain ⟨fs, behind, rfl⟩ := spells_of_readFraction hfraction
      obtain ⟨es, scale, rfl⟩ := spells_of_readExponent hexponent
      exact ⟨_, .mk negative whole (by tauto) behind scale, by simp only [List.append_assoc]⟩
  unfold readNumber at h
  split at h
  case h_1 =>
    obtain ⟨s, hs, rfl⟩ := hunsigned _ _ h
    exact ⟨_, hs, rfl⟩
  case h_2 =>
    obtain ⟨s, hs, rfl⟩ := hunsigned _ _ h
    exact ⟨_, hs, rfl⟩

/-! ## What comes first and what comes next -/

theorem isBlank_of_isDigit {c : Char} (hc : isDigit c = true) : isBlank c = false := by
  refine Bool.eq_false_iff.2 fun hblank => ?_
  simp only [isBlank, Bool.or_eq_true, decide_eq_true_eq] at hblank
  rcases hblank with ((rfl | rfl) | rfl) | rfl <;> cases hc

theorem isBlank_of_number {c : Char} (hc : c = '-' ∨ isDigit c = true) : isBlank c = false := by
  rcases hc with rfl | hc
  · rfl
  · exact isBlank_of_isDigit hc

theorem ends_nil : Ends [] := nofun

theorem ends_cons {c : Char} (hc : c = ',' ∨ c = ']' ∨ c = '}') (rest : List Char) :
    Ends (c :: rest) := by
  rintro _ ⟨⟩
  rcases hc with rfl | rfl | rfl <;> decide

theorem Ends.blank_append {b : List Char} (hb : Blank b) (hrest : Ends rest) :
    Ends (b ++ rest) := by
  cases b with
  | nil => exact hrest
  | cons c b =>
    rintro _ ⟨⟩
    have hc := hb c List.mem_cons_self
    refine ⟨Bool.eq_false_iff.2 fun hdigit => ?_, ?_, ?_, ?_⟩
    · cases hc.symm.trans (isBlank_of_isDigit hdigit)
    all_goals
      rintro rfl
      cases hc

/-- A value starts with no blank and with no end. -/
theorem Spells.value_head (h : Spells (.value j) cs) :
    ∃ c more, cs = c :: more ∧ isBlank c = false ∧ c ≠ ']' := by
  cases h with
  | number spelled =>
    obtain ⟨c, more, rfl, hc⟩ := spelled.head
    refine ⟨c, more, rfl, isBlank_of_number hc, ?_⟩
    rintro rfl
    rcases hc with hc | hc <;> cases hc
  | _ => exact ⟨_, _, rfl, by decide, by decide⟩

theorem Spells.items_head {items : List Json} (h : Spells (.items items) cs) (rest : List Char) :
    ∀ more, skipBlank (cs ++ rest) ≠ ']' :: more := by
  have hvalue : ∀ {b cs : List Char} {j : Json} (more : List Char), Blank b → Spells (.value j) cs →
      ∀ more', skipBlank (b ++ (cs ++ more) ++ rest) ≠ ']' :: more' := by
    intro b cs j more hb h more' heq
    obtain ⟨c, cs, rfl, hc, hend⟩ := h.value_head
    rw [List.append_assoc, skipBlank_append hb, List.append_assoc, List.cons_append,
      skipBlank_cons hc] at heq
    exact hend (List.cons.inj heq).1
  cases h with
  | lastItem before value _ => exact hvalue _ before value
  | item before value _ _ => exact hvalue _ before value

theorem Spells.members_head {members : List (List Text.Unit16 × Json)}
    (h : Spells (.members members) cs) (rest : List Char) :
    ∀ more, skipBlank (cs ++ rest) ≠ '}' :: more := by
  have hquote : ∀ {b : List Char} (more : List Char), Blank b →
      ∀ more', skipBlank (b ++ '"' :: more ++ rest) ≠ '}' :: more' := by
    intro b more hb more' heq
    rw [List.append_assoc, skipBlank_append hb, List.cons_append, skipBlank_cons (by decide)] at heq
    cases heq
  cases h with
  | lastMember before => exact hquote _ before
  | member before => exact hquote _ before

/-! ## Reading what is spelled -/

@[simp] theorem readValue_skipBlank (depth : Nat) (cs : List Char) :
    readValue depth (skipBlank cs) = readValue depth cs := by
  cases depth with
  | zero => rfl
  | succ depth => rw [readValue, readValue, skipBlank_skipBlank]

@[simp] theorem readItems_skipBlank (depth : Nat) (cs : List Char) :
    readItems depth (skipBlank cs) = readItems depth cs := by
  cases depth with
  | zero => rfl
  | succ depth => rw [readItems, readItems, readValue_skipBlank]

@[simp] theorem readMembers_skipBlank (depth : Nat) (cs : List Char) :
    readMembers depth (skipBlank cs) = readMembers depth cs := by
  cases depth with
  | zero => rfl
  | succ depth => rw [readMembers, readMembers, skipBlank_skipBlank]

section Equations

variable {depth : Nat} {b : List Char}

theorem readValue_number (hb : Blank b) (h : SpellsNumber cs n) (hrest : Ends rest) :
    readValue (depth + 1) (b ++ (cs ++ rest)) = some (number n, rest) := by
  have hread := readNumber_append h hrest
  obtain ⟨c, more, rfl, hc⟩ := h.head
  rw [readValue, List.cons_append, skipBlank_append_cons hb (isBlank_of_number hc)]
  split
  case h_7 => exact congrArg (Option.map _) hread
  all_goals
    -- the other values start with characters of their own
    next heq =>
      obtain rfl := (List.cons.inj heq).1
      rcases hc with hc | hc <;> cases hc

theorem readValue_string (hb : Blank b) (h : SpellsString cs us) :
    readValue (depth + 1) (b ++ '"' :: (cs ++ rest)) = some (string us, rest) := by
  rw [readValue, skipBlank_append_cons hb rfl]
  exact congrArg (Option.map _) (readString_append h rest)

theorem readValue_bracket (hb : Blank b) :
    readValue (depth + 1) (b ++ '[' :: cs) =
      match skipBlank cs with
      | ']' :: rest => some (array [], rest)
      | rest => (readItems depth rest).map fun (items, rest) => (array items, rest) := by
  rw [readValue, skipBlank_append_cons hb rfl]
  rfl

theorem readValue_brace (hb : Blank b) :
    readValue (depth + 1) (b ++ '{' :: cs) =
      match skipBlank cs with
      | '}' :: rest => some (object [], rest)
      | rest => (readMembers depth rest).map fun (members, rest) => (object members, rest) := by
  rw [readValue, skipBlank_append_cons hb rfl]
  rfl

theorem readValue_noItems (hb : Blank b) {b' : List Char} (hb' : Blank b') :
    readValue (depth + 1) (b ++ '[' :: (b' ++ ']' :: rest)) = some (array [], rest) := by
  rw [readValue_bracket hb, skipBlank_append_cons hb' rfl]
  rfl

theorem readValue_array (hb : Blank b) (hcs : ∀ more, skipBlank cs ≠ ']' :: more) :
    readValue (depth + 1) (b ++ '[' :: cs) =
      (readItems depth cs).map fun (items, rest) => (array items, rest) := by
  rw [readValue_bracket hb, ← readItems_skipBlank]
  split
  case h_1 more heq => exact absurd heq (hcs more)
  case h_2 => rfl

theorem readValue_noMembers (hb : Blank b) {b' : List Char} (hb' : Blank b') :
    readValue (depth + 1) (b ++ '{' :: (b' ++ '}' :: rest)) = some (object [], rest) := by
  rw [readValue_brace hb, skipBlank_append_cons hb' rfl]
  rfl

theorem readValue_object (hb : Blank b) (hcs : ∀ more, skipBlank cs ≠ '}' :: more) :
    readValue (depth + 1) (b ++ '{' :: cs) =
      (readMembers depth cs).map fun (members, rest) => (object members, rest) := by
  rw [readValue_brace hb, ← readMembers_skipBlank]
  split
  case h_1 more heq => exact absurd heq (hcs more)
  case h_2 => rfl

theorem readItems_last (h : readValue depth cs = some (j, b ++ ']' :: rest)) (hb : Blank b) :
    readItems (depth + 1) cs = some ([j], rest) := by
  have hend : skipBlank (b ++ ']' :: rest) = ']' :: rest :=
    skipBlank_append_cons hb rfl rest
  rw [readItems, h]
  simp [hend]

theorem readItems_cons (h : readValue depth cs = some (j, b ++ ',' :: rest)) (hb : Blank b) :
    readItems (depth + 1) cs =
      (readItems depth rest).map fun (items, rest) => (j :: items, rest) := by
  have hcomma : skipBlank (b ++ ',' :: rest) = ',' :: rest :=
    skipBlank_append_cons hb rfl rest
  rw [readItems, h]
  simp only [Option.bind_eq_bind, Option.bind_some, hcomma]
  cases readItems depth rest <;> rfl

theorem readMembers_last {ks b₁ b₂ b' : List Char} {key : List Text.Unit16}
    (hb₁ : Blank b₁) (hkey : SpellsString ks key) (hb₂ : Blank b₂)
    (h : readValue depth cs = some (j, b' ++ '}' :: rest)) (hb' : Blank b') :
    readMembers (depth + 1) (b₁ ++ '"' :: (ks ++ (b₂ ++ ':' :: cs))) =
      some ([(key, j)], rest) := by
  have hcolon : skipBlank (b₂ ++ ':' :: cs) = ':' :: cs :=
    skipBlank_append_cons hb₂ rfl cs
  have hend : skipBlank (b' ++ '}' :: rest) = '}' :: rest :=
    skipBlank_append_cons hb' rfl rest
  rw [readMembers, skipBlank_append_cons hb₁ rfl]
  simp [readString_append hkey, hcolon, h, hend]

theorem readMembers_cons {ks b₁ b₂ b' : List Char} {key : List Text.Unit16}
    (hb₁ : Blank b₁) (hkey : SpellsString ks key) (hb₂ : Blank b₂)
    (h : readValue depth cs = some (j, b' ++ ',' :: rest)) (hb' : Blank b') :
    readMembers (depth + 1) (b₁ ++ '"' :: (ks ++ (b₂ ++ ':' :: cs))) =
      (readMembers depth rest).map fun (members, rest) => ((key, j) :: members, rest) := by
  have hcolon : skipBlank (b₂ ++ ':' :: cs) = ':' :: cs :=
    skipBlank_append_cons hb₂ rfl cs
  have hcomma : skipBlank (b' ++ ',' :: rest) = ',' :: rest :=
    skipBlank_append_cons hb' rfl rest
  rw [readMembers, skipBlank_append_cons hb₁ rfl]
  simp only [Option.bind_eq_bind, Option.bind_some, readString_append hkey, hcolon, h, hcomma]
  cases readMembers depth rest <;> rfl

end Equations

/-- The phrase is read, wherever it stands, given a depth for each of its characters. -/
def Reads : Phrase → List Char → Prop
  | .value j, cs => ∀ depth b rest, cs.length ≤ depth → Blank b → Ends rest →
    readValue depth (b ++ (cs ++ rest)) = some (j, rest)
  | .items items, cs => ∀ depth rest, cs.length ≤ depth →
    readItems depth (cs ++ rest) = some (items, rest)
  | .members members, cs => ∀ depth rest, cs.length ≤ depth →
    readMembers depth (cs ++ rest) = some (members, rest)

/-- A value is not empty, so it is enough to look at positive depths. -/
theorem Reads.of_succ (hcs : cs ≠ []) (h : ∀ depth b rest, cs.length ≤ depth + 1 → Blank b →
    Ends rest → readValue (depth + 1) (b ++ (cs ++ rest)) = some (j, rest)) :
    Reads (.value j) cs := by
  intro depth b rest hdepth hb hrest
  cases depth with
  | zero => exact absurd (List.eq_nil_of_length_eq_zero (Nat.le_zero.1 hdepth)) hcs
  | succ depth => exact h depth b rest hdepth hb hrest

/-- What is spelled is read. -/
theorem Spells.reads {p : Phrase} (h : Spells p cs) : Reads p cs := by
  induction h with
  | null =>
    refine .of_succ nofun fun depth b rest _ hb _ => ?_
    rw [readValue, skipBlank_append hb]
    rfl
  | truth =>
    refine .of_succ nofun fun depth b rest _ hb _ => ?_
    rw [readValue, skipBlank_append hb]
    rfl
  | falsehood =>
    refine .of_succ nofun fun depth b rest _ hb _ => ?_
    rw [readValue, skipBlank_append hb]
    rfl
  | number spelled =>
    obtain ⟨c, more, heq, -⟩ := spelled.head
    exact .of_succ (heq ▸ nofun) fun _ _ _ _ hb hrest => readValue_number hb spelled hrest
  | string spelled =>
    exact .of_succ nofun fun _ _ _ _ hb _ => readValue_string hb spelled
  | noItems blank =>
    refine .of_succ nofun fun depth b rest _ hb _ => ?_
    rw [List.cons_append, List.append_assoc]
    exact readValue_noItems hb blank
  | array spelled ih =>
    refine .of_succ nofun fun depth b rest hdepth hb _ => ?_
    rw [List.cons_append, readValue_array hb (spelled.items_head rest),
      ih depth rest (Nat.le_of_succ_le_succ hdepth)]
    rfl
  | noMembers blank =>
    refine .of_succ nofun fun depth b rest _ hb _ => ?_
    rw [List.cons_append, List.append_assoc]
    exact readValue_noMembers hb blank
  | object spelled ih =>
    refine .of_succ nofun fun depth b rest hdepth hb _ => ?_
    rw [List.cons_append, readValue_object hb (spelled.members_head rest),
      ih depth rest (Nat.le_of_succ_le_succ hdepth)]
    rfl
  | lastItem before _ behind ih =>
    intro depth rest hdepth
    simp only [List.append_assoc, List.length_append, List.length_singleton] at hdepth ⊢
    obtain ⟨depth, rfl⟩ : ∃ d, depth = d + 1 := ⟨depth - 1, by omega⟩
    have hvalue := ih depth _ (_ ++ ']' :: rest) (by omega) before
      ((ends_cons (.inr (.inl rfl)) rest).blank_append behind)
    exact readItems_last hvalue behind
  | @item _ _ _ _ _ more before _ behind _ ih ihmore =>
    intro depth rest hdepth
    simp only [List.append_assoc, List.length_append, List.length_cons] at hdepth ⊢
    obtain ⟨depth, rfl⟩ : ∃ d, depth = d + 1 := ⟨depth - 1, by omega⟩
    have hvalue := ih depth _ (_ ++ ',' :: (more ++ rest)) (by omega) before
      ((ends_cons (.inl rfl) _).blank_append behind)
    exact (readItems_cons hvalue behind).trans (by rw [ihmore depth rest (by omega)]; rfl)
  | lastMember before quoted between between' _ behind ih =>
    intro depth rest hdepth
    simp only [List.append_assoc, List.length_append, List.length_cons, List.cons_append]
      at hdepth ⊢
    obtain ⟨depth, rfl⟩ : ∃ d, depth = d + 1 := ⟨depth - 1, by omega⟩
    have hvalue := ih depth _ (_ ++ '}' :: rest) (by omega) between'
      ((ends_cons (.inr (.inr rfl)) rest).blank_append behind)
    exact readMembers_last before quoted between hvalue behind
  | @member _ _ _ _ _ _ _ _ _ more before quoted between between' _ behind _ ih ihmore =>
    intro depth rest hdepth
    simp only [List.append_assoc, List.length_append, List.length_cons, List.cons_append]
      at hdepth ⊢
    obtain ⟨depth, rfl⟩ : ∃ d, depth = d + 1 := ⟨depth - 1, by omega⟩
    have hvalue := ih depth _ (_ ++ ',' :: (more ++ rest)) (by omega) between'
      ((ends_cons (.inl rfl) _).blank_append behind)
    exact (readMembers_cons before quoted between hvalue behind).trans
      (by rw [ihmore depth rest (by omega)]; rfl)

/-! ## What is read is spelled -/

/-- Readers of a depth read nothing but what is spelled. -/
structure ReadsSpelled (depth : Nat) : Prop where
  value : ∀ cs j rest, readValue depth cs = some (j, rest) →
    ∃ b s, Blank b ∧ Spells (.value j) s ∧ cs = b ++ (s ++ rest)
  items : ∀ cs items rest, readItems depth cs = some (items, rest) →
    ∃ s, Spells (.items items) s ∧ cs = s ++ rest
  members : ∀ cs members rest, readMembers depth cs = some (members, rest) →
    ∃ s, Spells (.members members) s ∧ cs = s ++ rest

theorem ReadsSpelled.value_succ {depth : Nat} (ih : ReadsSpelled depth)
    (h : readValue (depth + 1) cs = some (j, rest)) :
    ∃ b s, Blank b ∧ Spells (.value j) s ∧ cs = b ++ (s ++ rest) := by
  obtain ⟨b, hb, hcs⟩ := exists_skipBlank cs
  rw [hcs]
  rw [readValue] at h
  generalize skipBlank cs = cs at h ⊢
  refine ⟨b, ?_⟩
  simp only [List.append_cancel_left_eq, hb, true_and]
  split at h
  case h_1 =>
    cases h
    exact ⟨_, .null, rfl⟩
  case h_2 =>
    cases h
    exact ⟨_, .truth, rfl⟩
  case h_3 =>
    cases h
    exact ⟨_, .falsehood, rfl⟩
  case h_4 =>
    obtain ⟨⟨us, _⟩, hread, h⟩ := Option.map_eq_some_iff.1 h
    cases h
    obtain ⟨s, hs, rfl⟩ := spells_of_readString hread
    exact ⟨_, .string hs, rfl⟩
  case h_5 cs =>
    split at h
    case h_1 more hend =>
      cases h
      obtain ⟨b', hb', heq⟩ := exists_skipBlank cs
      exact ⟨_, .noItems hb', by rw [heq, hend]; simp⟩
    case h_2 =>
      obtain ⟨⟨items, _⟩, hread, h⟩ := Option.map_eq_some_iff.1 h
      cases h
      rw [readItems_skipBlank] at hread
      obtain ⟨s, hs, rfl⟩ := ih.items _ _ _ hread
      exact ⟨_, .array hs, rfl⟩
  case h_6 cs =>
    split at h
    case h_1 more hend =>
      cases h
      obtain ⟨b', hb', heq⟩ := exists_skipBlank cs
      exact ⟨_, .noMembers hb', by rw [heq, hend]; simp⟩
    case h_2 =>
      obtain ⟨⟨members, _⟩, hread, h⟩ := Option.map_eq_some_iff.1 h
      cases h
      rw [readMembers_skipBlank] at hread
      obtain ⟨s, hs, rfl⟩ := ih.members _ _ _ hread
      exact ⟨_, .object hs, rfl⟩
  case h_7 =>
    obtain ⟨⟨n, _⟩, hread, h⟩ := Option.map_eq_some_iff.1 h
    cases h
    obtain ⟨s, hs, rfl⟩ := spells_of_readNumber hread
    exact ⟨_, .number hs, rfl⟩

theorem ReadsSpelled.items_succ {depth : Nat} (ih : ReadsSpelled depth) {items : List Json}
    (h : readItems (depth + 1) cs = some (items, rest)) :
    ∃ s, Spells (.items items) s ∧ cs = s ++ rest := by
  simp only [readItems, Option.bind_eq_bind, Option.bind_eq_some_iff] at h
  obtain ⟨⟨j, behind⟩, hread, h⟩ := h
  obtain ⟨b, s, hb, hs, rfl⟩ := ih.value _ _ _ hread
  obtain ⟨b', hb', hbehind⟩ := exists_skipBlank behind
  split at h
  case h_1 more hend =>
    cases h
    exact ⟨_, .lastItem hb hs hb', by rw [hbehind, hend]; simp⟩
  case h_2 more hcomma =>
    obtain ⟨⟨items, _⟩, hread, h⟩ := Option.bind_eq_some_iff.1 h
    cases h
    obtain ⟨s', hs', rfl⟩ := ih.items _ _ _ hread
    exact ⟨_, .item hb hs hb' hs', by rw [hbehind, hcomma]; simp⟩
  case h_3 => cases h

theorem ReadsSpelled.members_succ {depth : Nat} (ih : ReadsSpelled depth)
    {members : List (List Text.Unit16 × Json)}
    (h : readMembers (depth + 1) cs = some (members, rest)) :
    ∃ s, Spells (.members members) s ∧ cs = s ++ rest := by
  obtain ⟨b₁, hb₁, hcs⟩ := exists_skipBlank cs
  rw [hcs]
  rw [readMembers] at h
  generalize skipBlank cs = cs at h ⊢
  split at h
  case h_2 => cases h
  case h_1 cs =>
    obtain ⟨⟨key, more⟩, hkey, hmembers⟩ := Option.bind_eq_some_iff.1 h
    obtain ⟨ks, hks, rfl⟩ := spells_of_readString hkey
    obtain ⟨b₂, hb₂, hmore⟩ := exists_skipBlank more
    dsimp only at hmembers
    split at hmembers
    case h_2 => cases hmembers
    case h_1 more hcolon =>
      obtain ⟨⟨j, behind⟩, hread, h⟩ := Option.bind_eq_some_iff.1 hmembers
      obtain ⟨b₃, s, hb₃, hs, rfl⟩ := ih.value _ _ _ hread
      obtain ⟨b₄, hb₄, hbehind⟩ := exists_skipBlank behind
      split at h
      case h_1 hend =>
        cases h
        exact ⟨_, .lastMember hb₁ hks hb₂ hb₃ hs hb₄, by rw [hmore, hcolon, hbehind, hend]; simp⟩
      case h_2 hcomma =>
        obtain ⟨⟨members, _⟩, hread, h⟩ := Option.bind_eq_some_iff.1 h
        cases h
        obtain ⟨s', hs', rfl⟩ := ih.members _ _ _ hread
        exact ⟨_, .member hb₁ hks hb₂ hb₃ hs hb₄ hs', by rw [hmore, hcolon, hbehind, hcomma]; simp⟩
      case h_3 => cases h

/-- What is read is spelled. -/
theorem readsSpelled (depth : Nat) : ReadsSpelled depth := by
  induction depth with
  | zero =>
    constructor
    all_goals
      intro _ _ _ h
      cases h
  | succ depth ih =>
    exact ⟨fun _ _ _ => ih.value_succ, fun _ _ _ => ih.items_succ, fun _ _ _ => ih.members_succ⟩

/-- A value is read from a text exactly if the text holds it. -/
theorem parse?_eq_some_iff {text : String} : parse? text = some j ↔ Holds text j := by
  constructor
  · intro h
    obtain ⟨⟨j', rest⟩, hread, h⟩ := Option.bind_eq_some_iff.1 h
    obtain ⟨b, cs, hb, hcs, htext⟩ := (readsSpelled _).value _ _ _ hread
    obtain ⟨b', hb', hrest⟩ := exists_skipBlank rest
    dsimp only at h
    split at h
    case isTrue hend =>
      cases h
      rw [hend, List.append_nil] at hrest
      exact ⟨b, cs, b', hb, hcs, hb', hrest ▸ htext⟩
    case isFalse => cases h
  · rintro ⟨b, cs, b', hb, hcs, hb', htext⟩
    have hread := hcs.reads (text.toList.length + 1) b b' (by rw [htext]; simp; omega) hb
      (List.append_nil b' ▸ ends_nil.blank_append hb')
    rw [← htext] at hread
    simp [parse?, hread, skipBlank_of_blank hb']

end GuestBoundary.Json
