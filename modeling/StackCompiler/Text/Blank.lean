import StackCompiler.Text.Interval

/-!
White space in the sense of Unicode, and the text between it.
-/
namespace StackCompiler.Text

/-- The code points that are white space. -/
def blanks : List Interval := [
  ⟨0x9, 0xd⟩, ⟨0x20, 0x20⟩, ⟨0x85, 0x85⟩, ⟨0xa0, 0xa0⟩, ⟨0x1680, 0x1680⟩, ⟨0x2000, 0x200a⟩,
  ⟨0x2028, 0x2029⟩, ⟨0x202f, 0x202f⟩, ⟨0x205f, 0x205f⟩, ⟨0x3000, 0x3000⟩]

def isBlank (c : Char) : Bool :=
  blanks.any (·.holds c.toNat)

/-- A text without the white space at its start. -/
def trimStart (cs : List Char) : List Char :=
  cs.dropWhile isBlank

/-- A text without the white space at either end. -/
def trim (cs : List Char) : List Char :=
  (trimStart (trimStart cs).reverse).reverse

end StackCompiler.Text
