import StackCompiler.Number.Text

/-!
The numbers of a document. An integer that 64 bits hold stays an integer; any
other number is a double-precision number.
-/
namespace StackCompiler

inductive Number where
  | int (value : Int)
  | float (value : Binary64)
deriving DecidableEq

namespace Number

/-- Integers that a document keeps as integers: those of 64 bits, signed or unsigned. -/
def inRange (i : Int) : Bool :=
  -(twoPow 63 : Int) ≤ i && i < twoPow 64

/-- The number that an integer numeral denotes. A negative zero is no integer. -/
def ofNumeral (negative : Bool) (digits : Nat) : Number :=
  let value : Int := if negative then - digits else digits
  if negative && digits == 0 then .float (.ofMagnitude true 0)
  else if inRange value then .int value
  else .float (.ofInt value)

def toBinary64 : Number → Binary64
  | .int i => .ofInt i
  | .float x => x

/-- A number as `style` writes it; integers are written in decimal digits by every style. -/
def text (style : FloatStyle) : Number → String
  | .int i => toString i
  | .float x => x.text style

end Number

end StackCompiler
