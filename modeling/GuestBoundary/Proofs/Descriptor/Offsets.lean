import GuestBoundary.Proofs.Descriptor.Cuts
import GuestBoundary.Proofs.Descriptor.Grammar

/-!
# Descriptors by byte offset

A descriptor can be read in place: an offset into its bytes moves forward, brackets and letters are
compared as bytes, and what was read is cut out between two offsets.  The readers of this file work
that way, and they are shown to agree with the readers of characters: by `typeAt_append` for one
type, wherever it starts, and from it by induction on the parameter list.  So no cut is ever
refused.
-/

namespace GuestBoundary.Descriptor

/-! ## The readers -/

/-- A type as it was read: the kind of its values and its text. -/
structure Piece where
  kind : Kind
  text : String
  deriving DecidableEq

/-- The type that was read between two offsets. -/
def pieceAt (descriptor : String) (kind : Kind) (start stop : Nat) :
    Option (Except DescriptorError (Piece × Nat)) :=
  match between? descriptor.toList start stop with
  | none => none
  | some cs => some (.ok (⟨kind, String.ofList cs⟩, stop))

/-- The letters that are a type of their own. -/
def letters : List Char := ['Z', 'B', 'C', 'S', 'I', 'F', 'J', 'D', 'V']

/-- The kind that a type starting with this byte has, or an array if brackets end there. -/
def kindAt (start offset : Nat) (lead : UInt8) : Kind :=
  if start < offset then .object else (Kind.ofLetter? (Char.ofNat lead.toNat)).getD .object

/-- Reads a type whose brackets, if any, start at one offset and end at another. -/
def baseAt (descriptor : String) (start offset : Nat) :
    Option (Except DescriptorError (Piece × Nat)) :=
  match (bytes descriptor.toList)[offset]? with
  | none => some (.error (.unterminatedClass descriptor))
  | some lead =>
    if lead = byte 'L' then
      match from? descriptor.toList offset with
      | none => none
      | some tail =>
        match find? ';' tail with
        | none => some (.error (.unterminatedClass descriptor))
        | some distance =>
          if 1 < distance then
            pieceAt descriptor (kindAt start offset lead) start (offset + distance + 1)
          else some (.error (.unterminatedClass descriptor))
    else if lead = byte 'V' ∧ start < offset then some (.error (.misplacedVoid descriptor))
    else if lead ∈ letters.map byte then
      pieceAt descriptor (kindAt start offset lead) start (offset + 1)
    else
      match from? descriptor.toList offset with
      | none => none
      | some tail => some (.error (.unexpectedChar descriptor offset (tail.headD '\x00')))

/-- Reads one type from an offset on and returns the offset behind it. -/
def typeAt (descriptor : String) (start : Nat) :
    Option (Except DescriptorError (Piece × Nat)) :=
  let brackets := ((bytes descriptor.toList).drop start).takeWhile (· = byte '[')
  baseAt descriptor start (start + brackets.length)

theorem stop_of_pieceAt {descriptor : String} {kind : Kind} {start stop stop' : Nat} {p : Piece}
    (h : pieceAt descriptor kind start stop = some (.ok (p, stop'))) : stop' = stop := by
  unfold pieceAt at h
  split at h
  · cases h
  · exact ((Prod.mk.inj (Except.ok.inj (Option.some.inj h))).2).symm

theorem lt_of_typeAt {descriptor : String} {start stop : Nat} {p : Piece}
    (h : typeAt descriptor start = some (.ok (p, stop))) : start < stop := by
  unfold typeAt baseAt at h
  dsimp only at h
  split at h
  case h_1 => cases h
  case h_2 =>
    split at h
    · split at h
      · cases h
      · split at h
        · cases h
        · split at h
          · have := stop_of_pieceAt h
            omega
          · cases h
    · split at h
      · cases h
      · split at h
        · have := stop_of_pieceAt h
          omega
        · split at h <;> cases h

/-- Reads types from an offset on up to the closing parenthesis, and returns the offset behind
it. -/
def paramsAt (descriptor : String) (offset : Nat) :
    Option (Except DescriptorError (List Piece × Nat)) :=
  match hfront : from? descriptor.toList offset with
  | none => none
  | some [] => some (.error (.missingParameters descriptor))
  | some (c :: _) =>
    if c = ')' then some (.ok ([], offset + 1))
    else
      match hread : typeAt descriptor offset with
      | none => none
      | some (.error e) => some (.error e)
      | some (.ok (piece, stop)) =>
        have _inside := lt_of_from? hfront
        have _further := lt_of_typeAt hread
        if piece.kind = .void then some (.error (.misplacedVoid descriptor))
        else
          match paramsAt descriptor stop with
          | none => none
          | some (.error e) => some (.error e)
          | some (.ok (pieces, stop)) => some (.ok (piece :: pieces, stop))
termination_by byteLength descriptor.toList - offset
decreasing_by omega

/-- Reads one type from an offset on, up to the end of the text. -/
def lastAt (descriptor : String) (offset : Nat) : Option (Except DescriptorError Piece) :=
  match typeAt descriptor offset with
  | none => none
  | some (.error e) => some (.error e)
  | some (.ok (piece, stop)) =>
    if stop ≠ byteLength descriptor.toList then some (.error (.trailingInput descriptor))
    else some (.ok piece)

/-- Reads a whole text as one type. -/
def fieldAt (descriptor : String) : Option (Except DescriptorError Piece) :=
  if descriptor.toList = [] then some (.error .empty)
  else
    match lastAt descriptor 0 with
    | some (.ok piece) =>
      if piece.kind = .void then some (.error (.misplacedVoid descriptor)) else some (.ok piece)
    | stopped => stopped

/-- Reads a whole text as the type of a method: the parameters and the result. -/
def methodAt (descriptor : String) : Option (Except DescriptorError (List Piece × Piece)) :=
  if descriptor.toList = [] then some (.error .empty)
  else if descriptor.toList.head? ≠ some '(' then some (.error (.missingParameters descriptor))
  else
    match paramsAt descriptor 1 with
    | none => none
    | some (.error e) => some (.error e)
    | some (.ok (pieces, offset)) =>
      if byteLength descriptor.toList ≤ offset then some (.error .empty)
      else
        match lastAt descriptor offset with
        | none => none
        | some (.error e) => some (.error e)
        | some (.ok piece) => some (.ok (pieces, piece))

/-- What was read between the ends of two prefixes is what lies between them. -/
theorem pieceAt_append {s : String} {front cut rest : List Char}
    (h : s.toList = front ++ cut ++ rest) (kind : Kind) :
    pieceAt s kind (byteLength front) (byteLength front + byteLength cut) =
      some (.ok (⟨kind, String.ofList cut⟩, byteLength front + byteLength cut)) := by
  rw [pieceAt, h, between?_append]

/-! ## Brackets -/

/-- A type under a number of brackets. -/
def arrays (depth : Nat) (t : FieldType) : FieldType :=
  match depth with
  | 0 => t
  | depth + 1 => .array (arrays depth t)

theorem chars_arrays (depth : Nat) (t : FieldType) :
    (arrays depth t).chars = List.replicate depth '[' ++ t.chars := by
  induction depth with
  | zero => rfl
  | succ depth ih => rw [arrays, FieldType.chars, ih, List.replicate_succ, List.cons_append]

theorem readField_brackets (depth : Nat) (base : List Char) :
    readField (List.replicate depth '[' ++ base) =
      match readField base with
      | .ok (t, rest) => .ok (arrays depth t, rest)
      | .error cause => .error cause := by
  induction depth with
  | zero =>
    rw [List.replicate_zero, List.nil_append]
    split
    case h_1 t rest h => exact h
    case h_2 cause h => exact h
  | succ depth ih =>
    rw [List.replicate_succ, List.cons_append, readField, ih]
    cases readField base <;> rfl

/-- Characters are brackets in a row and then none. -/
theorem exists_brackets (cs : List Char) :
    ∃ depth base, cs = List.replicate depth '[' ++ base ∧ base.head? ≠ some '[' := by
  induction cs with
  | nil => exact ⟨0, [], rfl, by simp⟩
  | cons c cs ih =>
    by_cases hc : c = '['
    case pos =>
      obtain ⟨depth, base, rfl, hbase⟩ := ih
      exact ⟨depth + 1, base, by rw [hc, List.replicate_succ, List.cons_append], hbase⟩
    case neg => exact ⟨0, c :: cs, rfl, by simpa using hc⟩

theorem byteLength_brackets (depth : Nat) : byteLength (List.replicate depth '[') = depth := by
  induction depth with
  | zero => rfl
  | succ depth ih =>
    rw [List.replicate_succ, byteLength, ih, utf8Size_of_lt (by decide), Nat.add_comm]

theorem takeWhile_bytes {base : List Char} (hbase : base.head? ≠ some '[') (depth : Nat) :
    ((bytes (List.replicate depth '[' ++ base)).takeWhile (· = byte '[')).length = depth := by
  induction depth with
  | zero =>
    rw [List.replicate_zero, List.nil_append]
    cases base with
    | nil => rfl
    | cons c cs =>
      obtain ⟨more, hmore⟩ := utf8EncodeChar_eq_cons c
      have hlead : leadByte c ≠ byte '[' := fun h =>
        hbase (congrArg some ((leadByte_eq_iff (by decide)).1 h))
      rw [bytes, List.flatMap_cons, hmore, List.cons_append, List.takeWhile_cons, if_neg (by simpa)]
      rfl
  | succ depth ih =>
    have hbracket : bytes (List.replicate (depth + 1) '[' ++ base) =
        byte '[' :: bytes (List.replicate depth '[' ++ base) := rfl
    rw [hbracket, List.takeWhile_cons, if_pos (by simp), List.length_cons, ih]

/-! ## One type -/

/-- A result as it is read. -/
def piece : Option FieldType → Piece
  | some t => ⟨t.kind, t.text⟩
  | none => ⟨.void, "V"⟩

theorem kindAt_brackets {t : FieldType} {lead : UInt8}
    (h : (Kind.ofLetter? (Char.ofNat lead.toNat)).getD .object = t.kind) (start depth : Nat) :
    kindAt start (start + depth) lead = (arrays depth t).kind := by
  unfold kindAt
  cases depth with
  | zero => rw [if_neg (by omega), h, arrays]
  | succ depth => rw [if_pos (by omega), arrays, FieldType.kind]

theorem readResult_of_head {cs : List Char} (h : cs.head? ≠ some 'V') :
    readResult cs =
      match readField cs with
      | .ok (t, rest) => .ok (some t, rest)
      | .error cause => .error cause := by
  have hother : ∀ rest, cs = 'V' :: rest → False := by
    rintro rest rfl
    exact h rfl
  refine (readResult.eq_2 cs hother).trans ?_
  cases readField cs <;> rfl

/-- A reader of results passes over brackets, but not to a letter for nothing. -/
theorem readResult_brackets {depth : Nat} {base : List Char}
    (h : 0 < depth ∨ base.head? ≠ some 'V') :
    readResult (List.replicate depth '[' ++ base) =
      match readField base with
      | .ok (t, rest) => .ok (some (arrays depth t), rest)
      | .error cause => .error cause := by
  rw [readResult_of_head, readField_brackets]
  · cases readField base <;> rfl
  · cases depth with
    | zero =>
      obtain h | h := h
      · omega
      · exact h
    | succ depth => simp [List.replicate_succ]

theorem readField_unexpected {c : Char} (hbracket : c ≠ '[') (hL : c ≠ 'L') (hV : c ≠ 'V')
    (h : Primitive.ofLetter? c = none) (cs : List Char) :
    readField (c :: cs) = .error (.unexpected c (c :: cs)) := by
  rw [readField.eq_5 c cs hbracket hL hV, h]

theorem mem_letters_iff {c : Char} :
    c ∈ letters ↔ c = 'V' ∨ ∃ p, Primitive.ofLetter? c = some p := by
  constructor
  · intro h
    simp only [letters, List.mem_cons, List.not_mem_nil, or_false] at h
    rcases h with rfl | rfl | rfl | rfl | rfl | rfl | rfl | rfl | rfl
    iterate 8 exact .inr ⟨_, rfl⟩
    exact .inl rfl
  · rintro (rfl | ⟨p, hp⟩)
    · decide
    · rw [← Primitive.letter_of_ofLetter? hp]
      cases p <;> decide

theorem lt_of_mem_letters {c : Char} (h : c ∈ letters) : c.toNat < 0x80 := by
  have hall : letters.all (fun c => decide (c.toNat < 0x80)) = true := by decide
  exact of_decide_eq_true (List.all_eq_true.1 hall c h)

section

variable {s : String} {front base : List Char} {depth : Nat}

/-- What is cut out when a type was read behind brackets. -/
theorem pieceAt_brackets {t : FieldType} {lead : UInt8} {rest : List Char}
    (hs : s.toList = front ++ List.replicate depth '[' ++ (t.chars ++ rest))
    (hlead : (Kind.ofLetter? (Char.ofNat lead.toNat)).getD .object = t.kind) {stop : Nat}
    (hstop : stop = byteLength front + depth + byteLength t.chars) :
    pieceAt s (kindAt (byteLength front) (byteLength front + depth) lead) (byteLength front) stop =
      some (.ok (piece (some (arrays depth t)),
        byteLength front + byteLength (arrays depth t).chars)) := by
  have hlength : stop = byteLength front + byteLength (arrays depth t).chars := by
    rw [hstop, chars_arrays, byteLength_append, byteLength_brackets, Nat.add_assoc]
  have hsplit : s.toList = front ++ (arrays depth t).chars ++ rest := by
    rw [hs, chars_arrays]
    simp only [List.append_assoc]
  rw [kindAt_brackets hlead, hlength]
  exact pieceAt_append hsplit _

theorem find?_name {name : List Char} (h : ';' ∉ name) (rest : List Char) :
    find? ';' ('L' :: (name ++ ';' :: rest)) = some (1 + byteLength name) := by
  rw [find?, if_pos (by simp), List.takeWhile_cons, if_pos (by decide),
    (takeWhile_dropWhile_mark h rest).1, byteLength, utf8Size_of_lt (by decide)]

theorem readField_unmarked {cs : List Char} (h : ';' ∉ cs) :
    readField ('L' :: cs) = .error .unterminated := by
  have hdrop : cs.dropWhile (· ≠ ';') = [] := by
    rw [← List.append_nil cs, List.dropWhile_append_of_pos]
    · rfl
    · exact fun c hc => decide_eq_true fun heq => h (heq ▸ hc)
  rw [readField, hdrop]

/-- What a reader of characters says about a type that starts at an offset, with the offset behind
it. -/
def outcome (s : String) (start : Nat) (cs : List Char) : Except DescriptorError (Piece × Nat) :=
  match readResult cs with
  | .error cause => .error (cause.toError s)
  | .ok (result, _) => .ok (piece result, start + byteLength (MethodType.resultChars result))

theorem outcome_brackets {start : Nat}
    (h : 0 < depth ∨ base.head? ≠ some 'V') :
    outcome s start (List.replicate depth '[' ++ base) =
      match readField base with
      | .error cause => .error (cause.toError s)
      | .ok (t, _) =>
        .ok (piece (some (arrays depth t)), start + byteLength (arrays depth t).chars) := by
  rw [outcome, readResult_brackets h]
  cases readField base <;> rfl

theorem byteLength_brackets_append :
    byteLength (front ++ List.replicate depth '[') = byteLength front + depth := by
  rw [byteLength_append, byteLength_brackets]

theorem getElem?_brackets {c : Char} {tail : List Char}
    (hs : s.toList = front ++ List.replicate depth '[' ++ c :: tail) :
    (bytes s.toList)[byteLength front + depth]? = some (leadByte c) := by
  have := getElem?_bytes (front ++ List.replicate depth '[') tail c
  rwa [byteLength_brackets_append, ← hs] at this

theorem from?_brackets (hs : s.toList = front ++ List.replicate depth '[' ++ base) :
    from? s.toList (byteLength front + depth) = some base := by
  have := from?_append (front ++ List.replicate depth '[') base
  rwa [byteLength_brackets_append, ← hs] at this

theorem baseAt_end (hs : s.toList = front ++ List.replicate depth '[') :
    baseAt s (byteLength front) (byteLength front + depth) =
      some (outcome s (byteLength front) (List.replicate depth '[')) := by
  have hlead := getElem?_bytes_end (front ++ List.replicate depth '[')
  rw [byteLength_brackets_append, ← hs] at hlead
  have houtcome : outcome s (byteLength front) (List.replicate depth '[' ++ []) = _ :=
    outcome_brackets (.inr (by simp))
  rw [List.append_nil] at houtcome
  rw [baseAt, hlead, houtcome]
  rfl

/-- The name of a class ends at the first mark. -/
theorem baseAt_class {tail : List Char}
    (hs : s.toList = front ++ List.replicate depth '[' ++ 'L' :: tail) :
    baseAt s (byteLength front) (byteLength front + depth) =
      some (outcome s (byteLength front) (List.replicate depth '[' ++ 'L' :: tail)) := by
  rw [baseAt, getElem?_brackets hs, outcome_brackets (.inr (by simp))]
  dsimp only
  rw [if_pos ((leadByte_eq_iff (by decide)).2 rfl), from?_brackets hs]
  dsimp only
  by_cases hmark : ';' ∈ tail
  case neg =>
    rw [readField_unmarked hmark, find?, if_neg (by simpa using hmark)]
    rfl
  case pos =>
    obtain ⟨name, rest, rfl, hname⟩ := List.eq_append_cons_of_mem hmark
    rw [find?_name hname]
    dsimp only
    by_cases hnil : name = []
    case pos =>
      subst hnil
      rw [if_neg (by rw [byteLength]; omega)]
      rfl
    case neg =>
      obtain ⟨name, rfl⟩ := exists_className hnil hname
      have hpos := byteLength_pos hnil
      have hend : byteLength (FieldType.reference name).chars =
          1 + byteLength name.text.toList + 1 := by
        rw [FieldType.chars, List.cons_append, byteLength, byteLength_append,
          utf8Size_of_lt (by decide), Nat.add_assoc]
        rfl
      rw [← chars_reference_append] at hs
      rw [if_pos (by omega), readField_name]
      exact pieceAt_brackets hs rfl (by omega)

/-- The letter for nothing is a type of its own, and none behind brackets. -/
theorem baseAt_void {tail : List Char}
    (hs : s.toList = front ++ List.replicate depth '[' ++ 'V' :: tail) :
    baseAt s (byteLength front) (byteLength front + depth) =
      some (outcome s (byteLength front) (List.replicate depth '[' ++ 'V' :: tail)) := by
  rw [baseAt, getElem?_brackets hs]
  dsimp only
  rw [if_neg (mt (leadByte_eq_iff (by decide)).1 (by decide))]
  by_cases hdepth : 0 < depth
  case pos =>
    rw [if_pos ⟨(leadByte_eq_iff (by decide)).2 rfl, by omega⟩, outcome_brackets (.inl hdepth)]
    rfl
  case neg =>
    obtain rfl : depth = 0 := by omega
    have hbytes : s.toList = front ++ ['V'] ++ tail := by
      rw [hs, List.append_assoc, List.append_assoc]
      rfl
    rw [if_neg (by omega), if_pos ((leadByte_mem_iff fun _ => lt_of_mem_letters).2 (by decide)),
      kindAt, if_neg (by omega)]
    exact pieceAt_append hbytes .void

theorem baseAt_letter {p : Primitive} {tail : List Char}
    (hs : s.toList = front ++ List.replicate depth '[' ++ p.letter :: tail) :
    baseAt s (byteLength front) (byteLength front + depth) =
      some (outcome s (byteLength front) (List.replicate depth '[' ++ p.letter :: tail)) := by
  have hmem : p.letter ∈ letters := mem_letters_iff.2 (.inr ⟨p, Primitive.ofLetter?_letter p⟩)
  have hL : p.letter ≠ 'L' := by cases p <;> decide
  have hV : p.letter ≠ 'V' := by cases p <;> decide
  have hlength : byteLength [p.letter] = 1 := by
    rw [byteLength, utf8Size_of_lt (lt_of_mem_letters hmem)]
    rfl
  have hkind : (Kind.ofLetter? (Char.ofNat (leadByte p.letter).toNat)).getD .object =
      (FieldType.primitive p).kind := by
    cases p <;> rfl
  rw [baseAt, getElem?_brackets hs, outcome_brackets (.inr (by simpa using hV)), readField_letter]
  dsimp only
  rw [if_neg (mt (leadByte_eq_iff (by decide)).1 hL),
    if_neg fun h => hV ((leadByte_eq_iff (by decide)).1 h.1),
    if_pos ((leadByte_mem_iff fun _ => lt_of_mem_letters).2 hmem)]
  exact pieceAt_brackets hs hkind (by rw [FieldType.chars, hlength])

theorem baseAt_unexpected {c : Char} {tail : List Char} (hbracket : c ≠ '[') (hL : c ≠ 'L')
    (hletters : c ∉ letters) (hs : s.toList = front ++ List.replicate depth '[' ++ c :: tail) :
    baseAt s (byteLength front) (byteLength front + depth) =
      some (outcome s (byteLength front) (List.replicate depth '[' ++ c :: tail)) := by
  have hV : c ≠ 'V' := fun h => hletters (mem_letters_iff.2 (.inl h))
  have hnone : Primitive.ofLetter? c = none := by
    cases hp : Primitive.ofLetter? c with
    | none => rfl
    | some p => exact absurd (mem_letters_iff.2 (.inr ⟨p, hp⟩)) hletters
  have hoffset : byteLength s.toList - byteLength (c :: tail) = byteLength front + depth := by
    rw [hs, byteLength_append, byteLength_brackets_append, Nat.add_sub_cancel]
  rw [baseAt, getElem?_brackets hs, outcome_brackets (.inr (by simpa using hV)),
    readField_unexpected hbracket hL hV hnone]
  dsimp only
  rw [if_neg (mt (leadByte_eq_iff (by decide)).1 hL),
    if_neg fun h => hV ((leadByte_eq_iff (by decide)).1 h.1),
    if_neg (mt (leadByte_mem_iff fun _ => lt_of_mem_letters).1 hletters), from?_brackets hs,
    Cause.toError, hoffset]
  rfl

/-- Behind any prefix, the reader by offsets says what the reader of characters says. -/
theorem typeAt_append {cs : List Char} (hs : s.toList = front ++ cs) :
    typeAt s (byteLength front) = some (outcome s (byteLength front) cs) := by
  obtain ⟨depth, base, rfl, hbase⟩ := exists_brackets cs
  have hbrackets : (((bytes s.toList).drop (byteLength front)).takeWhile (· = byte '[')).length =
      depth := by
    rw [hs, bytes_append, List.drop_left' (length_bytes front), takeWhile_bytes hbase]
  rw [typeAt, hbrackets]
  rw [← List.append_assoc] at hs
  cases base with
  | nil =>
    rw [List.append_nil] at hs ⊢
    exact baseAt_end hs
  | cons c tail =>
    by_cases hL : c = 'L'
    case pos => subst hL; exact baseAt_class hs
    case neg =>
      by_cases hletters : c ∈ letters
      case pos =>
        obtain rfl | ⟨p, hp⟩ := mem_letters_iff.1 hletters
        · exact baseAt_void hs
        · obtain rfl := Primitive.letter_of_ofLetter? hp
          exact baseAt_letter hs
      case neg =>
        exact baseAt_unexpected (fun h => hbase (congrArg some h)) hL hletters hs

/-! ## Whole descriptors -/

theorem outcome_of_readField {c : Char} {cs : List Char} {start : Nat} {cause : Cause}
    (h : readField (c :: cs) = .error cause) :
    (c = 'V' ∧ cause = .misplacedVoid ∧
      outcome s start (c :: cs) = .ok (piece none, start + byteLength ['V'])) ∨
    outcome s start (c :: cs) = .error (cause.toError s) := by
  by_cases hV : c = 'V'
  case pos =>
    subst hV
    cases h
    exact .inl ⟨rfl, rfl, rfl⟩
  case neg =>
    refine .inr ?_
    rw [outcome, readResult_of_head (by simpa using hV), h]

theorem kind_ne_void (t : FieldType) : t.kind ≠ .void := by
  cases t <;> intro h <;> cases h

theorem paramsAt_nil {offset : Nat} (h : from? s.toList offset = some []) :
    paramsAt s offset = some (.error (.missingParameters s)) := by
  rw [paramsAt]
  split
  case h_1 h' => rw [h] at h'; cases h'
  case h_2 => rfl
  case h_3 h' => rw [h] at h'; cases h'

theorem paramsAt_cons {offset : Nat} {c : Char} {cs : List Char}
    (h : from? s.toList offset = some (c :: cs)) :
    paramsAt s offset =
      if c = ')' then some (.ok ([], offset + 1))
      else
        match typeAt s offset with
        | none => none
        | some (.error e) => some (.error e)
        | some (.ok (piece, stop)) =>
          if piece.kind = .void then some (.error (.misplacedVoid s))
          else
            match paramsAt s stop with
            | none => none
            | some (.error e) => some (.error e)
            | some (.ok (pieces, stop)) => some (.ok (piece :: pieces, stop)) := by
  rw [paramsAt]
  split
  case h_1 h' => rw [h] at h'; cases h'
  case h_2 h' => rw [h] at h'; cases h'
  case h_3 c' cs' h' =>
    obtain ⟨rfl, rfl⟩ := List.cons.inj (Option.some.inj (h.symm.trans h'))
    split
    case isTrue => rfl
    case isFalse =>
      split
      case h_1 hread => rw [hread]
      case h_2 hread => rw [hread]
      case h_3 hread => simp only [hread]

/-- A type in a parameter list is read, and reading goes on behind it. -/
theorem paramsAt_chars {t : FieldType} {rest : List Char}
    (hs : s.toList = front ++ (t.chars ++ rest)) :
    paramsAt s (byteLength front) =
      match paramsAt s (byteLength (front ++ t.chars)) with
      | none => none
      | some (.error e) => some (.error e)
      | some (.ok (pieces, stop)) => some (.ok (piece (some t) :: pieces, stop)) := by
  obtain ⟨c, cs, hchars, hV, hclose⟩ := head_chars t
  have hfrom : from? s.toList (byteLength front) = some (t.chars ++ rest) :=
    hs ▸ from?_append front (t.chars ++ rest)
  have hread : outcome s (byteLength front) (t.chars ++ rest) =
      .ok (piece (some t), byteLength (front ++ t.chars)) := by
    rw [outcome, readResult_of_head, readField_chars, byteLength_append]
    · rfl
    · rw [hchars]
      exact fun h => hV (Option.some.inj h)
  rw [hchars, List.cons_append] at hfrom
  rw [paramsAt_cons hfrom, if_neg hclose, typeAt_append hs, hread]
  exact if_neg (kind_ne_void t)

/-- What the parameter list reads as, with the offset behind the parenthesis. -/
def paramsOutcome (s : String) (start : Nat) (cs : List Char) :
    Except DescriptorError (List Piece × Nat) :=
  match readParams cs with
  | .error cause => .error (cause.toError s)
  | .ok none => .error (.missingParameters s)
  | .ok (some (ts, _)) =>
    .ok (ts.map fun t => piece (some t), start + byteLength (MethodType.paramChars ts) + 1)

theorem paramsAt_append {cs : List Char} (hs : s.toList = front ++ cs) :
    paramsAt s (byteLength front) = some (paramsOutcome s (byteLength front) cs) := by
  have hfrom : from? s.toList (byteLength front) = some cs := hs ▸ from?_append front cs
  unfold paramsOutcome
  fun_induction readParams cs generalizing front
  case case1 => exact paramsAt_nil hfrom
  case case2 rest =>
    rw [paramsAt_cons hfrom, if_pos rfl]
    rfl
  case case3 c cs hclose cause hread =>
    rw [paramsAt_cons hfrom, if_neg hclose, typeAt_append hs]
    obtain ⟨-, rfl, houtcome⟩ | houtcome := outcome_of_readField (s := s) hread
    · rw [houtcome]
      rfl
    · rw [houtcome]
  -- In the other cases a type was read, and the rest starts behind its characters.
  case case4 hread _ _ hparams ih =>
    rw [chars_of_readField hread] at hs
    have hrest := (List.append_assoc ..).symm ▸ hs
    rw [paramsAt_chars hs, ih hrest (hrest ▸ from?_append _ _), hparams]
  case case5 hread _ hparams ih =>
    rw [chars_of_readField hread] at hs
    have hrest := (List.append_assoc ..).symm ▸ hs
    rw [paramsAt_chars hs, ih hrest (hrest ▸ from?_append _ _), hparams]
  case case6 hread _ ts _ hparams ih =>
    rw [chars_of_readField hread] at hs
    have hrest := (List.append_assoc ..).symm ▸ hs
    rw [paramsAt_chars hs, ih hrest (hrest ▸ from?_append _ _), hparams]
    simp only [MethodType.paramChars, List.flatMap_cons, List.map_cons, byteLength_append,
      Nat.add_assoc]

/-- At the end of a text, something is left over exactly if the reader of characters says so. -/
theorem lastAt_append {cs : List Char} (hs : s.toList = front ++ cs) :
    lastAt s (byteLength front) =
      some (match readResult cs with
        | .error cause => .error (cause.toError s)
        | .ok (_, _ :: _) => .error (.trailingInput s)
        | .ok (result, []) => .ok (piece result)) := by
  rw [lastAt, typeAt_append hs, outcome]
  have hlength : byteLength s.toList = byteLength front + byteLength cs := by
    rw [hs, byteLength_append]
  cases hread : readResult cs with
  | error cause => rfl
  | ok read =>
    obtain ⟨result, rest⟩ := read
    rw [readResult_eq_ok_iff.1 hread, byteLength_append] at hlength
    cases rest with
    | cons c rest =>
      have := byteLength_pos (List.cons_ne_nil c rest)
      exact if_pos (by omega)
    | nil =>
      rw [byteLength] at hlength
      exact if_neg (by omega)

end

/-- No cut is refused in reading a field type, and the reader of characters reads the same. -/
theorem fieldAt_eq (s : String) :
    fieldAt s = some ((FieldType.parse s).map fun t => piece (some t)) := by
  unfold fieldAt FieldType.parse
  by_cases hnil : s.toList = []
  case pos =>
    rw [if_pos hnil, if_pos hnil]
    rfl
  case neg =>
    have hlast := lastAt_append (List.nil_append s.toList).symm
    rw [byteLength] at hlast
    rw [if_neg hnil, if_neg hnil, hlast]
    cases readResult s.toList with
    | error cause => rfl
    | ok read =>
      obtain ⟨result, _ | ⟨c, rest⟩⟩ := read
      · cases result with
        | none => rfl
        | some t => exact if_neg (kind_ne_void t)
      · rfl

theorem byteLength_open (ts : List FieldType) :
    byteLength ('(' :: MethodType.paramChars ts ++ [')']) =
      1 + byteLength (MethodType.paramChars ts) + 1 := by
  rw [List.cons_append, byteLength, byteLength_append, utf8Size_of_lt (by decide), Nat.add_assoc]
  rfl

/-- No cut is refused in reading a method type, and the reader of characters reads the same. -/
theorem methodAt_eq (s : String) :
    methodAt s = some ((MethodType.parse s).map fun m =>
      (m.params.map fun t => piece (some t), piece m.result)) := by
  unfold MethodType.parse
  split
  case h_1 hs =>
    rw [methodAt, if_pos hs]
    rfl
  case h_3 hnil hopen =>
    rw [methodAt, if_neg hnil, if_pos fun h => ?_]
    · rfl
    · obtain ⟨c, cs, hs⟩ := List.exists_cons_of_ne_nil hnil
      rw [hs] at h
      exact hopen cs (hs.trans (congrArg (· :: cs) (Option.some.inj h)))
  case h_2 cs hs =>
    have hparams : paramsAt s 1 = some (paramsOutcome s 1 cs) := @paramsAt_append s ['('] cs hs
    rw [methodAt, if_neg (hs ▸ List.cons_ne_nil _ _), if_neg (by rw [hs]; simp), hparams,
      paramsOutcome]
    cases hread : readParams cs with
    | error cause => rfl
    | ok read =>
      cases read with
      | none => rfl
      | some read =>
        obtain ⟨ts, rest⟩ := read
        have hsplit : s.toList = '(' :: MethodType.paramChars ts ++ [')'] ++ rest := by
          rw [hs, readParams_eq_some_iff.1 hread, List.append_assoc]
          rfl
        have hlast := lastAt_append hsplit
        have hlength : byteLength s.toList =
            1 + byteLength (MethodType.paramChars ts) + 1 + byteLength rest := by
          rw [hsplit, byteLength_append, byteLength_open]
        rw [byteLength_open] at hlast
        cases rest with
        | nil => exact if_pos (Nat.le_of_eq hlength)
        | cons c rest =>
          have hpos := byteLength_pos (List.cons_ne_nil c rest)
          dsimp only
          rw [if_neg (by omega), hlast]
          cases readResult (c :: rest) with
          | error cause => rfl
          | ok read =>
            obtain ⟨result, _ | ⟨d, rest'⟩⟩ := read <;> rfl

/-! ## The readers and the grammar -/

/-- The name of a class is cut out of its descriptor. -/
theorem between?_name (name : List Char) :
    between? ('L' :: name ++ [';']) 1 (byteLength ('L' :: name ++ [';']) - 1) = some name := by
  have hL : byteLength ['L'] = 1 := rfl
  have hmark : byteLength [';'] = 1 := rfl
  have hlength : byteLength ('L' :: name ++ [';']) - 1 = 1 + byteLength name := by
    rw [List.cons_append, byteLength, byteLength_append, hmark, utf8Size_of_lt (by decide)]
    omega
  rw [hlength, ← hL]
  exact between?_append ['L'] name [';']

/-- A text is read as the type of a method exactly if the grammar splits it, and then the types and
kinds are those of its only split; it is read as the type of a field exactly if it is the text of
one type, and then gives its kind and class name; and read by offsets it gives the same, with no
cut refused. -/
theorem parse_eq_grammar (s : String) :
    ((∃ m, MethodType.parse s = .ok m) ↔ ∃ params result, MethodText s params result) ∧
    (∀ m params result, MethodType.parse s = .ok m → MethodText s params result →
      m.params.map FieldType.text = params.map (fun p => String.ofList p.1) ∧
      m.paramKinds = params.map Prod.snd ∧
      m.resultText = String.ofList result.1 ∧ m.resultKind = result.2 ∧ m.text = s) ∧
    (∀ params params' result result', MethodText s params result → MethodText s params' result' →
      params = params' ∧ result = result') ∧
    ((∃ t, FieldType.parse s = .ok t) ↔ ∃ k, TypeText s.toList k) ∧
    (∀ t, FieldType.parse s = .ok t → t.text = s ∧ TypeText s.toList t.kind ∧
      (∀ name, s.toList = 'L' :: name ++ [';'] → t.className? = some (String.ofList name) ∧
        between? s.toList 1 (byteLength s.toList - 1) = some name) ∧
      (s.toList.head? = some '[' → t.className? = some s)) ∧
    methodAt s = some ((MethodType.parse s).map fun m =>
      (m.params.map fun t => piece (some t), piece m.result)) ∧
    fieldAt s = some ((FieldType.parse s).map fun t => piece (some t)) := by
  refine ⟨⟨?_, ?_⟩, ?_, ?_, ⟨?_, ?_⟩, ?_, methodAt_eq s, fieldAt_eq s⟩
  · rintro ⟨m, hm⟩
    obtain rfl := MethodType.parse_eq_ok_iff.1 hm
    exact ⟨_, _, methodText_text m⟩
  · rintro ⟨params, result, h⟩
    obtain ⟨m, hm, -, -⟩ := h.exists_methodType
    exact ⟨m, MethodType.parse_eq_ok_iff.2 hm⟩
  · intro m params result hm h
    obtain ⟨rfl, rfl⟩ := h.eq_of_parse hm
    refine ⟨?_, ?_, rfl, rfl, MethodType.parse_eq_ok_iff.1 hm⟩
    · rw [paramTexts, List.map_map]
      rfl
    · rw [paramTexts, List.map_map]
      rfl
  · intro params params' result result' h h'
    obtain ⟨m, hm, -, -⟩ := h.exists_methodType
    have hm := MethodType.parse_eq_ok_iff.2 hm
    obtain ⟨rfl, rfl⟩ := h.eq_of_parse hm
    obtain ⟨rfl, rfl⟩ := h'.eq_of_parse hm
    exact ⟨rfl, rfl⟩
  · rintro ⟨t, ht⟩
    rw [FieldType.text_eq_iff.1 (FieldType.parse_eq_ok_iff.1 ht)]
    exact ⟨t.kind, typeText_chars t⟩
  · rintro ⟨k, hk⟩
    obtain ⟨t, hchars, -⟩ := hk.exists_fieldType
    exact ⟨t, FieldType.parse_eq_ok_iff.2 (FieldType.text_eq_iff.2 hchars.symm)⟩
  · intro t ht
    have htext := FieldType.parse_eq_ok_iff.1 ht
    have hchars := FieldType.text_eq_iff.1 htext
    refine ⟨htext, hchars ▸ typeText_chars t, fun name hs => ⟨?_, hs ▸ between?_name name⟩,
      fun hhead => ?_⟩
    · exact FieldType.className?_of_chars (hchars.symm.trans hs)
    · rw [hchars] at hhead
      rw [FieldType.className?_of_head hhead, htext]

/-- Class names may hold parentheses and brackets and characters of several bytes. -/
theorem parse_eq_grammar_parenthesis :
    ∃ m, MethodType.parse "(IL)é[;[J)L(;" = .ok m ∧
      m.params.map FieldType.text = ["I", "L)é[;", "[J"] ∧
      m.paramKinds = [.primitive .int, .object, .object] ∧ m.resultText = "L(;" := by
  obtain ⟨hsome, hsplit, -⟩ := parse_eq_grammar "(IL)é[;[J)L(;"
  have h : MethodText "(IL)é[;[J)L(;"
      [(['I'], .primitive .int), (['L', ')', 'é', '[', ';'], .object), (['[', 'J'], .object)]
      (['L', '(', ';'], .object) := by
    refine ⟨?_, .inl (@TypeText.name ['('] (by decide) (by decide)), rfl⟩
    simp only [List.forall_mem_cons, List.not_mem_nil, false_implies, implies_true, and_true]
    exact ⟨.letter .int, @TypeText.name [')', 'é', '['] (by decide) (by decide),
      .array (.letter .long)⟩
  obtain ⟨m, hm⟩ := hsome.2 ⟨_, _, h⟩
  obtain ⟨htexts, hkinds, hresult, -, -⟩ := hsplit m _ _ hm h
  exact ⟨m, hm, htexts, hkinds, hresult⟩

end GuestBoundary.Descriptor
