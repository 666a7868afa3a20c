import StackCompiler.Number.Decimal

/-!
How numbers are written. Every style writes the shortest numeral; the styles
differ in where positional notation ends and in what marks an exponent.
-/
namespace StackCompiler

/-- The decisions of a way to write double-precision numbers. -/
structure FloatStyle where
  /-- Digits before the point up to which positional notation is used; none where it always is. -/
  widest : Option Nat
  /-- Zeros after the point up to which positional notation is used. -/
  deepest : Nat
  /-- Whether a whole number keeps a point and a zero. -/
  fraction : Bool
  /-- What stands before an exponent that is not negative. -/
  positive : String
  nan : String
  infinite : String

namespace FloatStyle

/-- JSON numbers: positional from `0.00001` to below `10 ^ 16`, always with a fraction,
    and a sign on every exponent. -/
def json : FloatStyle := ⟨some 16, 4, true, "+", "NaN", "inf"⟩

/-- YAML numbers: as in JSON, without a sign on positive exponents. -/
def yaml : FloatStyle := ⟨some 16, 4, true, "", ".nan", ".inf"⟩

/-- Numbers in messages: always positional, whole numbers without a point. -/
def message : FloatStyle := ⟨none, 0, false, "", "NaN", "inf"⟩

end FloatStyle

namespace Decimal

def zeros (n : Nat) : String :=
  String.ofList (List.replicate n '0')

/-- A numeral in positional notation. -/
def positional (d : Decimal) (fraction : Bool) : String :=
  let digits := Nat.toDigits 10 d.digits
  let point : Int := digits.length + d.exponent
  match d.exponent with
  | .ofNat e => String.ofList digits ++ zeros e ++ (if fraction then ".0" else "")
  | .negSucc _ =>
    match point with
    | .ofNat 0 => "0." ++ String.ofList digits
    | .ofNat p => String.ofList (digits.take p) ++ "." ++ String.ofList (digits.drop p)
    | .negSucc z => "0." ++ zeros (z + 1) ++ String.ofList digits

/-- A numeral with an exponent: one digit before the point. -/
def scientific (d : Decimal) (positive : String) : String :=
  let digits := Nat.toDigits 10 d.digits
  let exponent : Int := digits.length + d.exponent - 1
  let mantissa :=
    match digits with
    | first :: second :: rest => String.ofList (first :: '.' :: second :: rest)
    | _ => String.ofList digits
  let mark := if exponent < 0 then "-" else positive
  mantissa ++ "e" ++ mark ++ toString exponent.natAbs

end Decimal

namespace Binary64

/-- A number as `style` writes it. -/
def text (style : FloatStyle) (x : Binary64) : String :=
  if x.isNaN then style.nan
  else
    let sign := if x.negative then "-" else ""
    if x.isInfinite then sign ++ style.infinite
    else
      let d := Decimal.shortest x
      let point : Int := (Nat.toDigits 10 d.digits).length + d.exponent
      let isPositional :=
        match style.widest with
        | none => true
        | some widest => point ≤ widest && -(style.deepest : Int) ≤ point
      sign ++ if isPositional then d.positional style.fraction else d.scientific style.positive

/-- The bits as sixteen hexadecimal digits. -/
def hexText (x : Binary64) : String :=
  let digits := Nat.toDigits 16 x.bits.toNat
  Decimal.zeros (16 - digits.length) ++ String.ofList digits

end Binary64

end StackCompiler
