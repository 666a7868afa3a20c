import StackCompiler.Number.Binary64

/-!
The shortest decimal numeral of a double-precision number: of the numerals with
the fewest digits that read back as the number, the nearest to it.
-/
namespace StackCompiler

/-- The numeral `digits * 10 ^ exponent`. -/
structure Decimal where
  digits : Nat
  exponent : Int

namespace Decimal

/-- The magnitude of a finite number with the interval of the reals that round
    to it, all over `2 ^ 1076`. -/
structure Neighbourhood where
  low : Nat
  mid : Nat
  high : Nat
  closed : Bool

/-- The scale of a neighbourhood. -/
def unit : Nat := twoPow 1076

def neighbourhood (x : Binary64) : Neighbourhood :=
  let parts := x.decompose
  let step := twoPow parts.scale
  let mid := 4 * parts.significand * step
  let below := if parts.significand = twoPow 52 && parts.scale != 0 then step else 2 * step
  { low := mid - below, mid := mid, high := mid + 2 * step,
    closed := parts.significand % 2 = 0 }

/-- `value / unit` over `10 ^ exponent`, as a fraction. -/
def scaled (value : Nat) : (exponent : Int) → Nat × Nat
  | .ofNat e => (value, unit * tenPow e)
  | .negSucc e => (value * tenPow (e + 1), unit)

/-- Whether `digits * 10 ^ exponent` rounds to the number. -/
def readsBack (n : Neighbourhood) (digits : Nat) (exponent : Int) : Bool :=
  let (low, den) := scaled n.low exponent
  let (high, _) := scaled n.high exponent
  if n.closed then low ≤ digits * den && digits * den ≤ high
  else low < digits * den && digits * den < high

/-- The least `p` with `value / unit < 10 ^ p`, for a value that is not zero. -/
def magnitude10 (value : Nat) : Int :=
  let guess := ((value.log2 : Int) - 1076) * 1233 / 4096 - 1
  let fits (p : Int) : Bool := let (num, den) := scaled value p; num < den
  match [guess, guess + 1, guess + 2, guess + 3].find? fits with
  | some p => p
  | none => guess + 4

/-- The numeral on the grid of `10 ^ exponent` that reads back, the nearer of two,
    the even one of two that are as near. -/
def onGrid? (n : Neighbourhood) (exponent : Int) : Option Decimal :=
  let (num, den) := scaled n.mid exponent
  let down := num / den
  let up := down + 1
  match readsBack n down exponent, readsBack n up exponent with
  | true, true =>
    let twice := 2 * (num % den)
    some ⟨if twice < den || (twice == den && down % 2 == 0) then down else up, exponent⟩
  | true, false => some ⟨down, exponent⟩
  | false, true => some ⟨up, exponent⟩
  | false, false => none

/-- One digit carried over, `10` on a grid, is `1` on the next coarser one. On every
    finer grid a power of ten has been found before. -/
def carried (d : Decimal) : Decimal :=
  if d.digits = 10 then ⟨1, d.exponent + 1⟩ else d

/-- The shortest numeral of the magnitude of a finite number. Seventeen digits
    always suffice. -/
def shortest (x : Binary64) : Decimal :=
  if x.magnitude = 0 then ⟨0, 0⟩
  else
    let n := neighbourhood x
    let top := magnitude10 n.mid
    match (List.range 17).findSome? fun (places : Nat) => onGrid? n (top - places - 1) with
    | some found => found.carried
    | none => ⟨0, 0⟩

end Decimal

end StackCompiler
