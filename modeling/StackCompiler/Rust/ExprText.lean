import StackCompiler.Json.Writer
import StackCompiler.Rust.Expr
import StackCompiler.Text.Lines
import StackCompiler.Text.Literal

/-!
The source text of initialisers. A list or call that is short stands on one line;
otherwise each of its entries has lines of its own.
-/
namespace StackCompiler.Rust

/-- Where an expression stands, which decides the conversions that it needs. -/
inductive Position where
  /-- A struct field or list item of a type of its own. -/
  | field
  /-- An argument that is converted by the function called. -/
  | arg
deriving DecidableEq

namespace Expr

/-- Bytes that a list or call may take on one line. -/
def inlineLimit : Nat := 72

/-- One level deeper. -/
def indented (s : String) : String :=
  Text.indentLines "    " s

/-- Entries between brackets, on one line or on lines of their own. -/
def wrapped (opening : String) (entries : List String) (closing : String) : String :=
  let inline := opening ++ ", ".intercalate entries ++ closing
  if inline.utf8ByteSize ≤ inlineLimit && ! inline.toList.contains '\n' then inline
  else
    opening ++ "\n" ++ String.join (entries.map fun entry => indented (entry ++ ",") ++ "\n") ++ closing

/-- A struct's fields, each on lines of its own, and then the defaults. -/
def structText (type : String) (fields : List String) : String :=
  type ++ " \x7b\n" ++ String.join (fields.map fun field => indented field ++ "\n")
    ++ "    ..Default::default()\n\x7d"

def converted (position : Position) (s : String) : String :=
  match position with
  | .field => s ++ ".into()"
  | .arg => s

def literalText : Json → String
  | .str s => Text.literal s
  | .null => "json!(null)"
  | scalar => scalar.compact

/-- The text of an argument where entries of several types stand together. -/
def unified : Expr → String → String
  | .literal _, s => "Expr::from(" ++ s ++ ")"
  | .str _, s => "Expr::from(" ++ s ++ ")"
  | .static _, s => "Expr::from(" ++ s ++ ")"
  | _, s => s

mutual

def text (position : Position) : Expr → String
  | .str s => Text.literal s
  | .literal scalar => converted position (literalText scalar)
  | .json document => converted position ("json!(" ++ document.compact ++ ")")
  | .static ident => converted position (ident ++ ".clone()")
  | .ref _ (Option.some ident) => converted position (ident ++ ".to_ref()")
  | .ref target none => converted position ("reference(" ++ Text.literal target ++ ")")
  | .attr _ name (Option.some ident) =>
    converted position (ident ++ ".attr(" ++ Text.literal name ++ ")")
  | .attr target name none =>
    converted position ("get_att(" ++ Text.literal target ++ ", " ++ Text.literal name ++ ")")
  | .call func args => converted position (wrapped (func ++ "(") (argTexts args) ")")
  | .list items => wrapped "vec![" (itemTexts position items) "]"
  | .pairs fields => wrapped "[" (pairTexts fields) "]"
  | .some inner => "Some(" ++ inner.text .field ++ ")"
  | .struct type fields => structText type (fieldTexts fields)

def argTexts : List Expr → List String
  | [] => []
  | arg :: rest => arg.text .arg :: argTexts rest

def itemTexts (position : Position) : List Expr → List String
  | [] => []
  | item :: rest =>
    (match position with
      | .field => item.text .field
      | .arg => unified item (item.text .arg)) :: itemTexts position rest

def pairTexts : List (String × Expr) → List String
  | [] => []
  | (name, value) :: rest =>
    ("(" ++ Text.literal name ++ ", " ++ unified value (value.text .arg) ++ ")") :: pairTexts rest

def fieldTexts : List (String × Expr) → List String
  | [] => []
  | (name, value) :: rest => (name ++ ": " ++ value.text .field ++ ",") :: fieldTexts rest

end

end Expr

end StackCompiler.Rust
