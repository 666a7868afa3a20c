/-!
Sets of characters by their code points, as the tables of character properties
list them.
-/
namespace StackCompiler.Text

/-- Every code point from `low` to `high`. -/
structure Interval where
  low : Nat
  high : Nat

/-- Every `step`-th code point from `low` to `high`. -/
structure Stride where
  low : Nat
  high : Nat
  step : Nat

def Interval.holds (i : Interval) (code : Nat) : Bool :=
  i.low ≤ code && code ≤ i.high

def Stride.holds (s : Stride) (code : Nat) : Bool :=
  s.low ≤ code && code ≤ s.high && (code - s.low) % s.step == 0

end StackCompiler.Text
