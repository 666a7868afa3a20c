import StackCompiler.Text.CaseTable

/-!
Upper and lower case for every letter, not only those of ASCII. A letter may
become several letters in the other case, as `ß` becomes `SS`.
-/
namespace StackCompiler.Text

def isUpper (c : Char) : Bool :=
  CaseTable.upper.any (·.holds c.toNat)

def isLower (c : Char) : Bool :=
  CaseTable.lower.any (·.holds c.toNat)

/-- The form of `c` that a table of several-letter forms or a table of distances gives. -/
def recased (several : List (Nat × List Nat)) (single : List (Stride × Int)) (c : Char) : List Char :=
  match several.lookup c.toNat with
  | some codes => codes.map Char.ofNat
  | none =>
    match single.find? (·.1.holds c.toNat) with
    | some (_, distance) => [Char.ofNat (c.toNat + distance).toNat]
    | none => [c]

def toUpper (c : Char) : List Char :=
  recased CaseTable.toUpperSeveral CaseTable.toUpper c

def toLower (c : Char) : List Char :=
  recased CaseTable.toLowerSeveral CaseTable.toLower c

/-- A text with its ASCII letters in lower case and all else as it is. -/
def asciiLower (s : String) : String :=
  s.map Char.toLower

def isAsciiAlphanumeric (c : Char) : Bool :=
  c.isAlphanum

end StackCompiler.Text
