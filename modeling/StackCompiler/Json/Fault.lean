import StackCompiler.Number.Basic
import StackCompiler.Number.Numeral
import StackCompiler.Text.Literal

/-!
What can be wrong with a JSON text: it is no JSON, or it is not of the shape that
its reader wants. One function words each cause.
-/
namespace StackCompiler.Json

/-- What stands where something else was wanted. -/
inductive Found where
  | null
  | bool (b : Bool)
  | number (n : Number)
  | text (s : String)
  | sequence
  | map
deriving DecidableEq

def Found.message : Found → String
  | .null => "null"
  | .bool true => "boolean `true`"
  | .bool false => "boolean `false`"
  | .number (.int i) => "integer `" ++ toString i ++ "`"
  | .number (.float x) => "floating point `" ++ x.text .json ++ "`"
  | .text s => "string " ++ Text.literal s
  | .sequence => "sequence"
  | .map => "map"

inductive Cause where
  | endInList
  | endInObject
  | endInString
  | endInValue
  | noColon
  | noListCommaOrEnd
  | noObjectCommaOrEnd
  | noIdent
  | noValue
  | badEscape
  | badNumber
  | numberOutOfRange
  | controlCharacter
  | keyNotString
  | loneSurrogate
  | trailingComma
  | trailingCharacters
  | unfinishedHexEscape
  | tooDeep
  | wrongType (found : Found) (expected : String)
  | wrongValue (found : Found) (expected : String)
  | wrongLength (length : Nat) (expected : String)
  | missingField (name : String)
  | repeatedField (name : String)
  | refused (message : String)
deriving DecidableEq

def Cause.message : Cause → String
  | .endInList => "EOF while parsing a list"
  | .endInObject => "EOF while parsing an object"
  | .endInString => "EOF while parsing a string"
  | .endInValue => "EOF while parsing a value"
  | .noColon => "expected `:`"
  | .noListCommaOrEnd => "expected `,` or `]`"
  | .noObjectCommaOrEnd => "expected `,` or `\x7d`"
  | .noIdent => "expected ident"
  | .noValue => "expected value"
  | .badEscape => "invalid escape"
  | .badNumber => "invalid number"
  | .numberOutOfRange => "number out of range"
  | .controlCharacter => "control character (\\u0000-\\u001F) found while parsing a string"
  | .keyNotString => "key must be a string"
  | .loneSurrogate => "lone leading surrogate in hex escape"
  | .trailingComma => "trailing comma"
  | .trailingCharacters => "trailing characters"
  | .unfinishedHexEscape => "unexpected end of hex escape"
  | .tooDeep => "recursion limit exceeded"
  | .wrongType found expected => "invalid type: " ++ found.message ++ ", expected " ++ expected
  | .wrongValue found expected => "invalid value: " ++ found.message ++ ", expected " ++ expected
  | .wrongLength length expected => "invalid length " ++ toString length ++ ", expected " ++ expected
  | .missingField name => "missing field `" ++ name ++ "`"
  | .repeatedField name => "duplicate field `" ++ name ++ "`"
  | .refused message => message

/-- A place in a text: lines count from one, columns in the bytes before the place. -/
structure Place where
  line : Nat
  column : Nat
deriving DecidableEq

structure Fault where
  cause : Cause
  place : Place
deriving DecidableEq

/-- What a message says between the cause and the line of a fault, and before the column. -/
def Place.words : String × String :=
  (" at line ", " column ")

def Fault.message (f : Fault) : String :=
  f.cause.message ++ Place.words.1 ++ toString f.place.line
    ++ Place.words.2 ++ toString f.place.column

/-! ### Messages that name a place -/

/-- The text before a number at its end, and the number, which takes at most 64 bits. -/
def numberAtEnd? (cs : List Char) : Option (List Char × Nat) :=
  let digits := (cs.reverse.takeWhile Char.isDigit).reverse
  if digits.isEmpty || twoPow 64 ≤ digitsValue digits then none
  else some (cs.take (cs.length - digits.length), digitsValue digits)

/-- The text before `words` at its end. -/
def beforeWords? (words : String) (cs : List Char) : Option (List Char) :=
  if words.toList.isSuffixOf cs then some (cs.take (cs.length - words.length)) else none

/-- Divides a message that ends with a place into what it says before and the place. -/
def placeAtEnd? (message : String) : Option (String × Place) := do
  let (cs, column) ← numberAtEnd? message.toList
  let (cs, line) ← numberAtEnd? (← beforeWords? Place.words.2 cs)
  let said ← beforeWords? Place.words.1 cs
  return (String.ofList said, ⟨line, column⟩)

end StackCompiler.Json
