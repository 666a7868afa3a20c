import StackCompiler.Text.Lines

/-!
Source text by lines: fragments that know nothing of their indentation, and drafts to
which they are added at the indentation of the moment.
-/
namespace StackCompiler.Rust

inductive Indent where
  | spaces (width : Nat)
  | tab

/-- One level of indentation. Widths of two and eight are kept; any other is four. -/
def Indent.text : Indent → String
  | spaces 2 => "  "
  | spaces 8 => "        "
  | spaces _ => "    "
  | tab => "\t"

inductive Fragment where
  /-- A line of code; line feeds in it start new lines at the same indentation. -/
  | line (s : String)
  | blank
  | doc (s : String)
  | comment (s : String)
  /-- A line, deeper lines, and perhaps a line that closes them. -/
  | block (header : String) (body : List Fragment) (close : Option String)
  | sequence (fragments : List Fragment)

namespace Fragment

/-- Code that is given as text, a line each. -/
def lines (code : String) : List Fragment :=
  (Text.lines code.toList).map fun line => .line (String.ofList line)

/-- The indentation at a level. -/
def margin (unit : String) (level : Nat) : String :=
  String.join (List.replicate level unit)

/-- The lines of a text, each at `margin` but for the empty ones. -/
def lineText (margin s : String) : String :=
  String.join ((Text.splitBy (· == '\n') s.toList).map fun line =>
    if line.isEmpty then "\n" else margin ++ String.ofList line ++ "\n")

/-- One line with a mark before its text. -/
def markedText (margin mark s : String) : String :=
  margin ++ mark ++ (if s.isEmpty then "" else " " ++ s) ++ "\n"

mutual

/-- The text of a fragment at a level. -/
def text (unit : String) (level : Nat) : Fragment → String
  | .line s => lineText (margin unit level) s
  | .blank => "\n"
  | .doc s => markedText (margin unit level) "///" s
  | .comment s => markedText (margin unit level) "//" s
  | .block header body close =>
    lineText (margin unit level) header ++ textAll unit (level + 1) body
      ++ (close.map (lineText (margin unit level))).getD ""
  | .sequence fragments => textAll unit level fragments

def textAll (unit : String) (level : Nat) : List Fragment → String
  | [] => ""
  | fragment :: rest => fragment.text unit level ++ textAll unit level rest

end

end Fragment

/-- Source text that is being written. -/
structure Draft where
  unit : String
  level : Nat
  written : String

namespace Draft

def start (unit : Indent) : Draft :=
  ⟨unit.text, 0, ""⟩

def deeper (draft : Draft) : Draft :=
  { draft with level := draft.level + 1 }

def shallower (draft : Draft) : Draft :=
  { draft with level := draft.level - 1 }

def add (draft : Draft) (fragment : Fragment) : Draft :=
  { draft with written := draft.written ++ fragment.text draft.unit draft.level }

end Draft

end StackCompiler.Rust
