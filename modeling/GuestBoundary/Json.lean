import GuestBoundary.Text.Hex
import GuestBoundary.Text.Units

/-!
# JSON

Configurations are written in JSON.  A string is kept as its code units, since an escape may spell
a surrogate without its partner; an object keeps its members in order, repeated keys included; a
number keeps its digits.  `Json.parse?` reads a text that holds one value and blanks around it,
`Json.pretty` writes one line per member.
-/

namespace GuestBoundary

/-- A number as it was written. -/
structure JsonNumber where
  negative : Bool
  whole : Nat
  /-- The digits behind the point, if there is one. -/
  fraction : Option (List Char)
  /-- What stands behind the exponent mark, if there is one. -/
  exponent : Option (List Char)
  deriving DecidableEq

/-- The natural number that is written plainly, without sign, point and exponent. -/
def JsonNumber.natural? (n : JsonNumber) : Option Nat :=
  if n.negative = false ∧ n.fraction = none ∧ n.exponent = none then some n.whole else none

inductive Json where
  | null
  | boolean (b : Bool)
  | number (n : JsonNumber)
  | string (units : List Text.Unit16)
  | array (items : List Json)
  | object (members : List (List Text.Unit16 × Json))
  deriving Inhabited

namespace Json

/-! ## Reading -/

def isBlank (c : Char) : Bool := c = ' ' || c = '\n' || c = '\t' || c = '\r'

def skipBlank (cs : List Char) : List Char := cs.dropWhile isBlank

def isDigit (c : Char) : Bool := '0' ≤ c && c ≤ '9'

/-- The number that decimal digits spell. -/
def digitsValue (cs : List Char) : Nat := cs.foldl (fun n c => n * 10 + (c.toNat - '0'.toNat)) 0

def hexValue? (c : Char) : Option Nat :=
  if '0' ≤ c ∧ c ≤ '9' then some (c.toNat - '0'.toNat)
  else if 'a' ≤ c ∧ c ≤ 'f' then some (c.toNat - 'a'.toNat + 10)
  else if 'A' ≤ c ∧ c ≤ 'F' then some (c.toNat - 'A'.toNat + 10)
  else none

/-- The unit that four hexadecimal digits spell. -/
def hexUnit? (a b c d : Char) : Option Text.Unit16 := do
  let a ← hexValue? a
  let b ← hexValue? b
  let c ← hexValue? c
  let d ← hexValue? d
  some (UInt16.ofNat (((a * 16 + b) * 16 + c) * 16 + d))

/-- The unit behind a backslash with one letter. -/
def escapeUnit? : Char → Option Text.Unit16
  | '"' => some 0x22
  | '\\' => some 0x5c
  | '/' => some 0x2f
  | 'b' => some 0x08
  | 'f' => some 0x0c
  | 'n' => some 0x0a
  | 'r' => some 0x0d
  | 't' => some 0x09
  | _ => none

/-- The rest of a string behind its opening quote, and what follows it. -/
def readString : List Char → Option (List Text.Unit16 × List Char)
  | [] => none
  | '"' :: rest => some ([], rest)
  | '\\' :: 'u' :: a :: b :: c :: d :: rest => do
    let u ← hexUnit? a b c d
    let (us, rest) ← readString rest
    some (u :: us, rest)
  | '\\' :: e :: rest => do
    let u ← escapeUnit? e
    let (us, rest) ← readString rest
    some (u :: us, rest)
  | c :: rest =>
    if c.toNat < 0x20 then none
    else do
      let (us, rest) ← readString rest
      some (Text.codePointUnits c.toNat ++ us, rest)

/-- Digits at the front, at least one. -/
def readDigits (cs : List Char) : Option (List Char × List Char) :=
  match cs.takeWhile isDigit with
  | [] => none
  | ds => some (ds, cs.dropWhile isDigit)

/-- The digits behind a point, if there is one. -/
def readFraction : List Char → Option (Option (List Char) × List Char)
  | '.' :: rest => (readDigits rest).map fun (ds, rest) => (some ds, rest)
  | cs => some (none, cs)

/-- What stands behind an exponent mark, if there is one. -/
def readExponent : List Char → Option (Option (List Char) × List Char)
  | [] => some (none, [])
  | c :: rest =>
    if c = 'e' ∨ c = 'E' then
      match rest with
      | '+' :: rest => (readDigits rest).map fun (ds, rest) => (some ('+' :: ds), rest)
      | '-' :: rest => (readDigits rest).map fun (ds, rest) => (some ('-' :: ds), rest)
      | rest => (readDigits rest).map fun (ds, rest) => (some ds, rest)
    else some (none, c :: rest)

/-- A number behind its sign; a zero does not start a longer one. -/
def readUnsigned (negative : Bool) (cs : List Char) : Option (JsonNumber × List Char) := do
  let (ds, rest) ← readDigits cs
  if ds.head? = some '0' ∧ ds.length ≠ 1 then none
  else do
    let (fraction, rest) ← readFraction rest
    let (exponent, rest) ← readExponent rest
    some (⟨negative, digitsValue ds, fraction, exponent⟩, rest)

def readNumber : List Char → Option (JsonNumber × List Char)
  | '-' :: rest => readUnsigned true rest
  | cs => readUnsigned false cs

mutual

/-- A value at the front, nested at most `depth` deep. -/
def readValue (depth : Nat) (cs : List Char) : Option (Json × List Char) :=
  match depth with
  | 0 => none
  | depth + 1 =>
    match skipBlank cs with
    | 'n' :: 'u' :: 'l' :: 'l' :: rest => some (null, rest)
    | 't' :: 'r' :: 'u' :: 'e' :: rest => some (boolean true, rest)
    | 'f' :: 'a' :: 'l' :: 's' :: 'e' :: rest => some (boolean false, rest)
    | '"' :: rest => (readString rest).map fun (us, rest) => (string us, rest)
    | '[' :: rest =>
      match skipBlank rest with
      | ']' :: rest => some (array [], rest)
      | rest => (readItems depth rest).map fun (items, rest) => (array items, rest)
    | '{' :: rest =>
      match skipBlank rest with
      | '}' :: rest => some (object [], rest)
      | rest => (readMembers depth rest).map fun (members, rest) => (object members, rest)
    | cs => (readNumber cs).map fun (n, rest) => (number n, rest)

/-- The items of an array up to its end. -/
def readItems (depth : Nat) (cs : List Char) : Option (List Json × List Char) :=
  match depth with
  | 0 => none
  | depth + 1 => do
    let (item, rest) ← readValue depth cs
    match skipBlank rest with
    | ']' :: rest => some ([item], rest)
    | ',' :: rest => do
      let (items, rest) ← readItems depth rest
      some (item :: items, rest)
    | _ => none

/-- The members of an object up to its end. -/
def readMembers (depth : Nat) (cs : List Char) :
    Option (List (List Text.Unit16 × Json) × List Char) :=
  match depth with
  | 0 => none
  | depth + 1 =>
    match skipBlank cs with
    | '"' :: rest => do
      let (key, rest) ← readString rest
      match skipBlank rest with
      | ':' :: rest => do
        let (value, rest) ← readValue depth rest
        match skipBlank rest with
        | '}' :: rest => some ([(key, value)], rest)
        | ',' :: rest => do
          let (members, rest) ← readMembers depth rest
          some ((key, value) :: members, rest)
        | _ => none
      | _ => none
    | _ => none

end

/-- The value that a text holds. -/
def parse? (text : String) : Option Json := do
  let cs := text.toList
  let (value, rest) ← readValue (cs.length + 1) cs
  if skipBlank rest = [] then some value else none

/-! ## Making and taking apart -/

/-- The code units of a text. -/
def ofText (s : String) : Json := string (Text.units s)

/-- A natural number, written plainly. -/
def ofNat (n : Nat) : Json := number ⟨false, n, none, none⟩

/-- An integer, written plainly. -/
def ofInt (n : Int) : Json := number ⟨n < 0, n.natAbs, none, none⟩

/-- An object with texts as keys. -/
def record (members : List (String × Json)) : Json :=
  object (members.map fun (key, value) => (Text.units key, value))

/-- The text of a string, if its surrogates are paired. -/
def textOfUnits? (us : List Text.Unit16) : Option String :=
  let s := Text.ofUnits us
  if Text.units s = us then some s else none

def isNull : Json → Bool
  | null => true
  | _ => false

def text? : Json → Option String
  | string us => textOfUnits? us
  | _ => none

def boolean? : Json → Option Bool
  | boolean b => some b
  | _ => none

def items? : Json → Option (List Json)
  | array items => some items
  | _ => none

/-- An integer that is written plainly. -/
def int? : Json → Option Int
  | number n =>
    if n.fraction = none ∧ n.exponent = none then
      some (if n.negative then -(n.whole : Int) else n.whole)
    else none
  | _ => none

/-- The value of a key, the last one if there are several; null if there is none. -/
def member (j : Json) (key : String) : Json :=
  match j with
  | object members =>
    ((members.filter fun m => m.1 == Text.units key).getLast?.map Prod.snd).getD null
  | _ => null

mutual

/-- How deeply a value is nested. -/
def depth : Json → Nat
  | array items => depthOfItems items + 1
  | object members => depthOfMembers members + 1
  | _ => 1

/-- How deeply the deepest of several values is nested. -/
def depthOfItems : List Json → Nat
  | [] => 0
  | item :: items => max (depth item) (depthOfItems items)

/-- How deeply the deepest of several members is nested. -/
def depthOfMembers : List (List Text.Unit16 × Json) → Nat
  | [] => 0
  | (_, value) :: members => max (depth value) (depthOfMembers members)

end

/-! ## Writing -/

/-- The decimal digits of a number. -/
def decimal (n : Nat) : List Char := Nat.toDigits 10 n

def writeNumber (n : JsonNumber) : List Char :=
  (if n.negative then ['-'] else []) ++ decimal n.whole ++
    (match n.fraction with
      | some ds => '.' :: ds
      | none => []) ++
    (match n.exponent with
      | some ds => 'e' :: ds
      | none => [])

/-- The written form of a character of a string. -/
def writeChar (c : Char) : List Char :=
  if c = '"' then ['\\', '"']
  else if c = '\\' then ['\\', '\\']
  else if c = '\n' then ['\\', 'n']
  else if c = '\r' then ['\\', 'r']
  else if c = '\t' then ['\\', 't']
  else if c = '\x08' then ['\\', 'b']
  else if c = '\x0c' then ['\\', 'f']
  else if c.toNat < 0x20 then '\\' :: 'u' :: Text.hexDigits 4 c.toNat
  else [c]

def writeString (us : List Text.Unit16) : List Char :=
  '"' :: (Text.charsOfUnits us).flatMap writeChar ++ ['"']

/-- A line end and the blanks in front of a line that is `depth` levels deep. -/
def newline (depth : Nat) : List Char := '\n' :: List.replicate (2 * depth) ' '

mutual

/-- A value on a line that is `depth` levels deep. -/
def write (depth : Nat) : Json → List Char
  | null => ['n', 'u', 'l', 'l']
  | boolean true => ['t', 'r', 'u', 'e']
  | boolean false => ['f', 'a', 'l', 's', 'e']
  | number n => writeNumber n
  | string us => writeString us
  | array [] => ['[', ']']
  | array (item :: items) =>
    '[' :: newline (depth + 1) ++ write (depth + 1) item ++ writeItems (depth + 1) items ++
      newline depth ++ [']']
  | object [] => ['{', '}']
  | object ((key, value) :: members) =>
    '{' :: newline (depth + 1) ++ writeString key ++ [':', ' '] ++ write (depth + 1) value ++
      writeMembers (depth + 1) members ++ newline depth ++ ['}']

/-- The items of an array after the first. -/
def writeItems (depth : Nat) : List Json → List Char
  | [] => []
  | item :: items => ',' :: newline depth ++ write depth item ++ writeItems depth items

/-- The members of an object after the first. -/
def writeMembers (depth : Nat) : List (List Text.Unit16 × Json) → List Char
  | [] => []
  | (key, value) :: members =>
    ',' :: newline depth ++ writeString key ++ [':', ' '] ++ write depth value ++
      writeMembers depth members

end

/-- The value with one line per member and two blanks per level. -/
def pretty (j : Json) : String := String.ofList (write 0 j)

end Json

end GuestBoundary
