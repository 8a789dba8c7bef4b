import GuestBoundary.Descriptor.Basic
import GuestBoundary.Text.Quoted

/-!
# Reading descriptors

A reader takes one type off the front of the text and returns the rest.  What stops it is a
`Cause`; a `DescriptorError` adds the descriptor that was being read.  `FieldType.parse` and
`MethodType.parse` accept a text only if nothing is left over.
-/

namespace GuestBoundary

/-- Why a text is no descriptor. -/
inductive DescriptorError where
  /-- There is nothing to read. -/
  | empty
  /-- No type starts with the character found. -/
  | unexpectedChar (descriptor : String) (offset : Nat) (found : Char)
  /-- A class name is empty or has no end mark, or an array type has no element type. -/
  | unterminatedClass (descriptor : String)
  /-- A void type that is not a method's result. -/
  | misplacedVoid (descriptor : String)
  /-- A method descriptor without a complete parameter list. -/
  | missingParameters (descriptor : String)
  /-- Characters left after a complete descriptor. -/
  | trailingInput (descriptor : String)
  deriving DecidableEq

def DescriptorError.message : DescriptorError → String
  | empty => "empty descriptor"
  | unexpectedChar d offset found =>
    s!"unexpected character {Text.quoteChar found} at offset {offset} in {Text.quote d}"
  | unterminatedClass d => s!"unterminated class name in {Text.quote d}"
  | misplacedVoid d => s!"void is only legal as a method return type in {Text.quote d}"
  | missingParameters d => s!"method descriptor {Text.quote d} must start with '('"
  | trailingInput d => s!"trailing characters in {Text.quote d}"

namespace Descriptor

/-- What stops a reader, with the characters that were left. -/
inductive Cause where
  | unexpected (found : Char) (rest : List Char)
  | unterminated
  | misplacedVoid

/-- The bytes that characters take in standard encoding. -/
def byteLength : List Char → Nat
  | [] => 0
  | c :: cs => c.utf8Size + byteLength cs

/-- The error for a cause met while reading `descriptor`; offsets count bytes. -/
def Cause.toError (descriptor : String) : Cause → DescriptorError
  | unexpected found rest =>
    .unexpectedChar descriptor (byteLength descriptor.toList - byteLength rest) found
  | unterminated => .unterminatedClass descriptor
  | misplacedVoid => .misplacedVoid descriptor

/-- The class name that the characters up to a mark spell. -/
def className? (cs : List Char) : Option ClassName :=
  if h : cs ≠ [] ∧ ';' ∉ cs then
    some ⟨String.ofList cs, by simpa using h.1, by simpa using h.2⟩
  else none

/-- A field type at the front. -/
def readField : List Char → Except Cause (FieldType × List Char)
  | [] => .error .unterminated
  | '[' :: rest =>
    match readField rest with
    | .ok (element, rest) => .ok (.array element, rest)
    | .error cause => .error cause
  | 'L' :: rest =>
    match rest.dropWhile (· ≠ ';'), className? (rest.takeWhile (· ≠ ';')) with
    | _ :: rest, some name => .ok (.reference name, rest)
    | _, _ => .error .unterminated
  | 'V' :: _ => .error .misplacedVoid
  | c :: rest =>
    match Primitive.ofLetter? c with
    | some p => .ok (.primitive p, rest)
    | none => .error (.unexpected c (c :: rest))

/-- A result type at the front: a field type, or `none` for `V`. -/
def readResult : List Char → Except Cause (Option FieldType × List Char)
  | 'V' :: rest => .ok (none, rest)
  | cs =>
    match readField cs with
    | .ok (t, rest) => .ok (some t, rest)
    | .error cause => .error cause

theorem length_of_readField {cs rest : List Char} {t : FieldType}
    (h : readField cs = .ok (t, rest)) : rest.length < cs.length := by
  induction cs generalizing t rest with
  | nil => simp [readField] at h
  | cons c cs ih =>
    unfold readField at h
    split at h
    · simp at h
    · rename_i tail heq
      obtain ⟨rfl, rfl⟩ := List.cons.inj heq
      split at h
      · rename_i element r hr
        simp only [Except.ok.injEq, Prod.mk.injEq] at h
        have := ih hr
        obtain ⟨-, rfl⟩ := h
        simp only [List.length_cons]
        omega
      · simp at h
    · rename_i tail heq
      obtain ⟨rfl, rfl⟩ := List.cons.inj heq
      split at h
      · rename_i mark r name hdrop _
        simp only [Except.ok.injEq, Prod.mk.injEq] at h
        obtain ⟨-, rfl⟩ := h
        have := (List.dropWhile_sublist (· ≠ ';') (l := cs)).length_le
        rw [hdrop] at this
        simp only [List.length_cons] at this ⊢
        omega
      · simp at h
    · simp at h
    · rename_i d tail _ _ _ heq
      obtain ⟨rfl, rfl⟩ := List.cons.inj heq
      split at h
      · simp only [Except.ok.injEq, Prod.mk.injEq] at h
        obtain ⟨-, rfl⟩ := h
        simp
      · simp at h

/-- The parameter types up to the closing parenthesis, and the characters after it.  A result of
`none` says that the parenthesis is missing. -/
def readParams (cs : List Char) : Except Cause (Option (List FieldType × List Char)) :=
  match cs with
  | [] => .ok none
  | ')' :: rest => .ok (some ([], rest))
  | c :: cs =>
    match h : readField (c :: cs) with
    | .error cause => .error cause
    | .ok (t, rest) =>
      have _shorter := length_of_readField h
      match readParams rest with
      | .error cause => .error cause
      | .ok none => .ok none
      | .ok (some (ts, rest)) => .ok (some (t :: ts, rest))
termination_by cs.length
decreasing_by exact _shorter

end Descriptor

open Descriptor

/-- The field type that a descriptor spells. -/
def FieldType.parse (descriptor : String) : Except DescriptorError FieldType :=
  if descriptor.toList = [] then .error .empty
  else
    match readResult descriptor.toList with
    | .error cause => .error (cause.toError descriptor)
    | .ok (_, _ :: _) => .error (.trailingInput descriptor)
    | .ok (none, []) => .error (.misplacedVoid descriptor)
    | .ok (some t, []) => .ok t

/-- The method type that a descriptor spells. -/
def MethodType.parse (descriptor : String) : Except DescriptorError MethodType :=
  match descriptor.toList with
  | [] => .error .empty
  | '(' :: rest =>
    match readParams rest with
    | .error cause => .error (cause.toError descriptor)
    | .ok none => .error (.missingParameters descriptor)
    | .ok (some (_, [])) => .error .empty
    | .ok (some (params, rest)) =>
      match readResult rest with
      | .error cause => .error (cause.toError descriptor)
      | .ok (_, _ :: _) => .error (.trailingInput descriptor)
      | .ok (result, []) => .ok ⟨params, result⟩
  | _ => .error (.missingParameters descriptor)

end GuestBoundary
