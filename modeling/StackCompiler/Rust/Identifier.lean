import StackCompiler.Text.WordCase

/-!
Rust identifiers for logical names and for property names.
-/
namespace StackCompiler.Rust

def keywords : List String :=
  ["as", "async", "await", "break", "const", "continue", "crate", "dyn", "else", "enum", "extern",
   "false", "fn", "for", "if", "impl", "in", "let", "loop", "match", "mod", "move", "mut", "pub",
   "ref", "return", "self", "Self", "static", "struct", "super", "trait", "true", "type", "unsafe",
   "use", "where", "while", "abstract", "become", "box", "do", "final", "gen", "macro", "override",
   "priv", "try", "typeof", "unsized", "virtual", "yield", "union"]

/-- Keywords that cannot be written as raw identifiers either. -/
def neverRaw : List String :=
  ["self", "Self", "super", "crate"]

def isKeyword (name : String) : Bool :=
  keywords.contains name

/-- A text in which everything but ASCII letters and digits is an underscore. -/
def plainChars (s : String) : String :=
  s.map fun c => if Text.isAsciiAlphanumeric c then c else '_'

def startsWithDigit (s : String) : Bool :=
  s.toList.head?.any Char.isDigit

/-- The identifier of a declaration: words run together with capitals, and a letter before a digit
    at the start. A name without letters and digits has none. -/
def declarationName? (logical : String) : Option String :=
  let name := Text.pascalCase (plainChars logical)
  if name.isEmpty then none
  else
    let name := if startsWithDigit name then "R" ++ name else name
    some (if isKeyword name then name ++ "_" else name)

/-- The struct field of a property: small letters, and keywords made harmless. -/
def fieldName (property : String) : String :=
  let name := plainChars (Text.snakeCase property)
  let name := if name.isEmpty || startsWithDigit name then "_" ++ name else name
  if neverRaw.contains name then name ++ "_"
  else if isKeyword name then "r#" ++ name
  else name

end StackCompiler.Rust
