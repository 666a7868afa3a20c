import StackCompiler.Json.Reader
import StackCompiler.Toml.Time

/-!
Numbers, truth values and times of a TOML text. Their values do not matter here, only
whether they are written as TOML wants them.
-/
namespace StackCompiler.Toml

/-- Digits, with single underscores between them at most. -/
def isDigitRun (isDigit : Char → Bool) : List Char → Bool
  | [] => false
  | [c] => isDigit c
  | c :: '_' :: rest => isDigit c && isDigitRun isDigit rest
  | c :: rest => isDigit c && isDigitRun isDigit rest

/-- Whether `c` is a digit of a base up to sixteen. -/
def isDigitOf (base : Nat) (c : Char) : Bool :=
  (Json.hexValue? [c]).any (· < base)

/-- The base that the letter after a leading zero names. -/
def baseOf? (letter : Char) : Option Nat :=
  if letter == 'x' then some 16
  else if letter == 'o' then some 8
  else if letter == 'b' then some 2
  else none

/-- A whole number in decimal digits, of which the first is no zero unless it is the only one. -/
def isDecimal (cs : List Char) : Bool :=
  isDigitRun Char.isDigit cs && (cs.length == 1 || cs.head? != some '0')

def withoutSign (cs : List Char) : List Char :=
  if cs.head?.any fun c => c == '+' || c == '-' then cs.tail else cs

def isExponent : List Char → Bool
  | [] => false
  | c :: cs => (c == 'e' || c == 'E') && isDigitRun Char.isDigit (withoutSign cs)

def isDigitOrUnderscore (c : Char) : Bool :=
  c.isDigit || c == '_'

/-- A number with a fraction, an exponent, or both. -/
def isFraction (cs : List Char) : Bool :=
  isDecimal (cs.takeWhile isDigitOrUnderscore)
    && match cs.dropWhile isDigitOrUnderscore with
      | '.' :: cs =>
        let rest := cs.dropWhile isDigitOrUnderscore
        isDigitRun Char.isDigit (cs.takeWhile isDigitOrUnderscore)
          && (rest.isEmpty || isExponent rest)
      | cs => isExponent cs

/-- A number in a base that its second letter names; such numbers have no sign. -/
def isBasedNumber : List Char → Bool
  | '0' :: letter :: digits => (baseOf? letter).any fun base => isDigitRun (isDigitOf base) digits
  | _ => false

def isNumber (cs : List Char) : Bool :=
  let unsigned := withoutSign cs
  isBasedNumber cs || isDecimal unsigned || isFraction unsigned
    || unsigned == "inf".toList || unsigned == "nan".toList

def isTruthValue (cs : List Char) : Bool :=
  cs == "true".toList || cs == "false".toList

/-- Characters of numbers, truth values and times. -/
def isScalarChar (c : Char) : Bool :=
  c.isAlphanum || "+-._:".toList.contains c

/-- The characters at the start of a text that may be a number, a truth value or a time. Only
    between a date and a time there may be a space. -/
def scalarText (cs : List Char) : List Char :=
  let word := cs.takeWhile isScalarChar
  match cs.dropWhile isScalarChar with
  | ' ' :: rest =>
    if isDate word && rest.head?.any Char.isDigit then word ++ ' ' :: rest.takeWhile isScalarChar
    else word
  | _ => word

/-- The text after a number, a truth value or a time at its start. -/
def afterScalar? (cs : List Char) : Option (List Char) :=
  let found := scalarText cs
  if isNumber found || isTruthValue found || isTime found then some (cs.drop found.length) else none

end StackCompiler.Toml
