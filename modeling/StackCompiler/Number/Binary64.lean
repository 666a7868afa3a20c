import StackCompiler.Number.Power

/-!
Double-precision numbers as their 64 bits. A finite number is a significand
times a power of two, so that rounding and comparison are exact arithmetic on
natural numbers (`ofRatio`, `decompose`).
-/
namespace StackCompiler

/-- A double-precision number, held as its 64 bits. -/
structure Binary64 where
  bits : UInt64
deriving DecidableEq, Inhabited

namespace Binary64

/-- The bits without the sign: the magnitude, ordered as the numbers are. -/
def magnitude (x : Binary64) : Nat :=
  x.bits.toNat % twoPow 63

def negative (x : Binary64) : Bool :=
  twoPow 63 ≤ x.bits.toNat

/-- The magnitude of the infinities; anything above it is not a number. -/
def infinite : Nat := 2047 * twoPow 52

def isNaN (x : Binary64) : Bool :=
  infinite < x.magnitude

def isInfinite (x : Binary64) : Bool :=
  x.magnitude == infinite

def isFinite (x : Binary64) : Bool :=
  x.magnitude < infinite

/-- The number with this magnitude and sign. -/
def ofMagnitude (negative : Bool) (magnitude : Nat) : Binary64 :=
  ⟨((if negative then twoPow 63 else 0) + magnitude).toUInt64⟩

def infinity (negative : Bool) : Binary64 :=
  ofMagnitude negative infinite

def notANumber : Binary64 :=
  ofMagnitude false (infinite + twoPow 51)

/-- Significand and scale of a finite number: its magnitude is
    `significand * 2 ^ scale / 2 ^ 1074`. -/
structure Parts where
  significand : Nat
  scale : Nat

def decompose (x : Binary64) : Parts :=
  let exponent := x.magnitude / twoPow 52
  let fraction := x.magnitude % twoPow 52
  if exponent = 0 then ⟨fraction, 0⟩ else ⟨twoPow 52 + fraction, exponent - 1⟩

/-- The quotient rounded to the nearest natural number, a half to the even one. -/
def roundDiv (num den : Nat) : Nat :=
  let quotient := num / den
  let twice := 2 * (num % den)
  if den < twice || (twice == den && quotient % 2 == 1) then quotient + 1 else quotient

/-- The largest `k` with `2 ^ k ≤ num / den`. -/
def log2Ratio (num den : Nat) : Int :=
  let guess : Int := (num.log2 : Int) - den.log2
  let reaches : Bool :=
    match guess with
    | .ofNat k => den * twoPow k ≤ num
    | .negSucc k => den ≤ num * twoPow (k + 1)
  if reaches then guess else guess - 1

/-- The number nearest to `num / den`, a half going to the even significand and
    what lies beyond the largest number to infinity. -/
def ofRatio (negative : Bool) (num den : Nat) : Binary64 :=
  if num = 0 then ofMagnitude negative 0
  else
    let scale := (log2Ratio num den + 1022).toNat
    let significand :=
      if scale ≤ 1074 then roundDiv (num * twoPow (1074 - scale)) den
      else roundDiv num (den * twoPow (scale - 1074))
    ofMagnitude negative (min infinite (scale * twoPow 52 + significand))

/-- The number nearest to an integer. -/
def ofInt (i : Int) : Binary64 :=
  ofRatio (i < 0) i.natAbs 1

/-- The number nearest to `digits * 10 ^ exponent`. -/
def ofDecimal (negative : Bool) (digits : Nat) (exponent : Int) : Binary64 :=
  if digits = 0 then ofMagnitude negative 0
  else
    let length : Int := (Nat.toDigits 10 digits).length
    if 310 < length + exponent then infinity negative
    else if length + exponent < -330 then ofMagnitude negative 0
    else
      match exponent with
      | .ofNat e => ofRatio negative (digits * tenPow e) 1
      | .negSucc e => ofRatio negative digits (tenPow (e + 1))

/-- The whole number that a finite number is, if it is one. -/
def toInt? (x : Binary64) : Option Int :=
  if x.isFinite then
    let parts := x.decompose
    let num := parts.significand * twoPow parts.scale
    if num % twoPow 1074 = 0 then
      let whole : Nat := num / twoPow 1074
      some (if x.negative then - whole else whole)
    else none
  else none

/-- Whether the two are equal as numbers: the zeros are, and nothing equals a NaN. -/
def sameNumber (x y : Binary64) : Bool :=
  ! x.isNaN && ! y.isNaN && (x == y || (x.magnitude == 0 && y.magnitude == 0))

end Binary64

end StackCompiler
