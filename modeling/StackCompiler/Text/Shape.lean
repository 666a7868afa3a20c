import StackCompiler.Text.ShapeTable

/-!
Characters that a reader of source text sees as themselves.
-/
namespace StackCompiler.Text

/-- Whether `c` has a shape of its own that does not depend on the character before it. -/
def isSolid (c : Char) : Bool :=
  ! ShapeTable.shapeless.any (·.holds c.toNat) && ! ShapeTable.extending.any (·.holds c.toNat)

end StackCompiler.Text
