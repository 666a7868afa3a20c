import StackCompiler.Number.Binary64

/-!
Numerals as texts of their own: decimal digits with an optional point and exponent,
and the words for infinity and for no number.
-/
namespace StackCompiler

/-- The number that decimal digits name. -/
def digitsValue (ds : List Char) : Nat :=
  ds.foldl (fun total d => 10 * total + (d.toNat - '0'.toNat)) 0

namespace Binary64

/-- The exponent that a text after the exponent mark names: digits, perhaps after a sign. -/
def exponent? (cs : List Char) : Option Int :=
  let (negative, digits) :=
    match cs with
    | '+' :: rest => (false, rest)
    | '-' :: rest => (true, rest)
    | _ => (false, cs)
  if digits.isEmpty || ! digits.all Char.isDigit then none
  else some (if negative then - digitsValue digits else digitsValue digits)

/-- The number that digits, a point among them and an exponent name. There is a digit before the
    point or after it. -/
def ofNumeral? (negative : Bool) (cs : List Char) : Option Binary64 :=
  let whole := cs.takeWhile Char.isDigit
  let afterWhole := cs.drop whole.length
  let (fraction, rest) :=
    match afterWhole with
    | '.' :: more => (more.takeWhile Char.isDigit, more.dropWhile Char.isDigit)
    | _ => ([], afterWhole)
  if whole.isEmpty && fraction.isEmpty then none
  else
    let number (exponent : Int) :=
      ofDecimal negative (digitsValue (whole ++ fraction)) (exponent - fraction.length)
    match rest with
    | [] => some (number 0)
    | c :: more => if c == 'e' || c == 'E' then (exponent? more).map number else none

/-- The number that a text names as a whole. Words may be in any case. -/
def ofText? (cs : List Char) : Option Binary64 :=
  let (negative, unsigned) :=
    match cs with
    | '+' :: rest => (false, rest)
    | '-' :: rest => (true, rest)
    | _ => (false, cs)
  let word := String.ofList (unsigned.map Char.toLower)
  if word == "inf" || word == "infinity" then some (infinity negative)
  else if word == "nan" then some notANumber
  else ofNumeral? negative unsigned

end Binary64

end StackCompiler
