import GuestBoundary.Descriptor.Basic
import GuestBoundary.Text.Hex
import GuestBoundary.Text.Units

/-!
# Symbol names

A native method that nobody registered is looked up in native libraries under a name made from
its class and method, then under a longer one that also spells its parameters.  Names may hold
any character, symbols only letters, digits and the low line: everything else is escaped.
-/

namespace GuestBoundary.Symbol

/-- ASCII letters and digits stand for themselves. -/
def isPlain (c : Char) : Bool := c.isAlphanum

/-- The written form of one character. -/
def mangleChar (c : Char) : List Char :=
  if c = '/' then ['_']
  else if c = '_' then ['_', '1']
  else if c = ';' then ['_', '2']
  else if c = '[' then ['_', '3']
  else if isPlain c then [c]
  else (Text.codePointUnits c.toNat).flatMap fun u => '_' :: '0' :: Text.hexDigits 4 u.toNat

/-- The characters of a name as a symbol spells them. -/
def mangleChars (cs : List Char) : List Char := cs.flatMap mangleChar

/-- A name as a symbol spells it. -/
def mangle (name : String) : String := String.ofList (mangleChars name.toList)

/-- The symbol of a method. -/
def shortName (className method : String) : String :=
  "Java_" ++ mangle className ++ "_" ++ mangle method

/-- The symbol of a method that also tells overloads apart. -/
def longName (className method : String) (type : MethodType) : String :=
  shortName className method ++ "__" ++ mangle type.paramText

end GuestBoundary.Symbol
