/-!
Powers of two and of ten.
-/
namespace StackCompiler

/-- `2 ^ k`. -/
def twoPow (k : Nat) : Nat :=
  Nat.pow 2 k

/-- `10 ^ k`. -/
def tenPow (k : Nat) : Nat :=
  Nat.pow 10 k

end StackCompiler
