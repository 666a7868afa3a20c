import StackCompiler.Json.Basic

/-!
JSON text of a document, compact or with two spaces of indentation per level.
-/
namespace StackCompiler.Json

/-- A character inside a string: quotes, backslashes and controls are escaped,
    everything else stands for itself. -/
def escaped (c : Char) : String :=
  if c = '\x22' then "\\\""
  else if c = '\x5c' then "\\\\"
  else if c = '\x08' then "\\b"
  else if c = '\x0c' then "\\f"
  else if c = '\n' then "\\n"
  else if c = '\r' then "\\r"
  else if c = '\t' then "\\t"
  else if c < ' ' then "\\u00" ++ Decimal.zeros (2 - (Nat.toDigits 16 c.toNat).length)
    ++ String.ofList (Nat.toDigits 16 c.toNat)
  else c.toString

def quoted (s : String) : String :=
  "\"" ++ String.join (s.toList.map escaped) ++ "\""

mutual

/-- The document without any white space. -/
def compact : Json → String
  | .null => "null"
  | .bool true => "true"
  | .bool false => "false"
  | .num n => n.text .json
  | .str s => quoted s
  | .arr items => "[" ++ ",".intercalate (compactItems items) ++ "]"
  | .obj members => "\x7b" ++ ",".intercalate (compactMembers members) ++ "\x7d"

def compactItems : List Json → List String
  | [] => []
  | item :: rest => item.compact :: compactItems rest

def compactMembers : List (String × Json) → List String
  | [] => []
  | (name, value) :: rest => (quoted name ++ ":" ++ value.compact) :: compactMembers rest

end

/-- A bracketed list with one entry on each line. -/
def bracketed (margin opening closing : String) (entries : List String) : String :=
  if entries.isEmpty then opening ++ closing
  else
    opening ++ "\n" ++ ",\n".intercalate (entries.map (margin ++ "  " ++ ·)) ++ "\n" ++ margin ++ closing

mutual

/-- The document over several lines, after the first line at `margin`. -/
def prettyAt (margin : String) : Json → String
  | .arr items => bracketed margin "[" "]" (prettyItems (margin ++ "  ") items)
  | .obj members => bracketed margin "\x7b" "\x7d" (prettyMembers (margin ++ "  ") members)
  | .null => "null"
  | .bool true => "true"
  | .bool false => "false"
  | .num n => n.text .json
  | .str s => quoted s

def prettyItems (margin : String) : List Json → List String
  | [] => []
  | item :: rest => item.prettyAt margin :: prettyItems margin rest

def prettyMembers (margin : String) : List (String × Json) → List String
  | [] => []
  | (name, value) :: rest => (quoted name ++ ": " ++ value.prettyAt margin) :: prettyMembers margin rest

end

def pretty (j : Json) : String :=
  j.prettyAt ""

end StackCompiler.Json
