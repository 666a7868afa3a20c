import StackCompiler.Text.Shape

/-!
String literals: a text between double quotes in which every character that
cannot stand as itself is escaped. Generated Rust source and messages that quote
a text use them.
-/
namespace StackCompiler.Text

/-- A character inside a literal. -/
def literalChar (c : Char) : String :=
  if c = '\x00' then "\\0"
  else if c = '\t' then "\\t"
  else if c = '\r' then "\\r"
  else if c = '\n' then "\\n"
  else if c = '\x22' then "\\\""
  else if c = '\x5c' then "\\\\"
  else if isSolid c then c.toString
  else "\\u\x7b" ++ String.ofList (Nat.toDigits 16 c.toNat) ++ "\x7d"

def literal (s : String) : String :=
  "\"" ++ String.join (s.toList.map literalChar) ++ "\""

end StackCompiler.Text
