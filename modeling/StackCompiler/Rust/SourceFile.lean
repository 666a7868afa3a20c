import StackCompiler.Rust.Layout

/-!
Rust source files: inner attributes, imports in groups, and items with blank lines
between them.
-/
namespace StackCompiler.Rust

structure Use where
  path : String
  symbols : List String
deriving DecidableEq

namespace Use

def text (u : Use) : String :=
  match u.symbols with
  | [] => "use " ++ u.path ++ ";"
  | [symbol] => "use " ++ u.path ++ "::" ++ symbol ++ ";"
  | symbols => "use " ++ u.path ++ "::\x7b" ++ ", ".intercalate symbols ++ "\x7d;"

/-- The group of an import: the standard library, other crates, this crate. -/
def group (u : Use) : Nat :=
  let cs := u.path.toList
  let crateName := String.ofList (cs.take ((Text.findFirst? [':', ':'] cs).getD cs.length))
  if ["std", "core", "alloc"].contains crateName then 0
  else if ["crate", "super", "self"].contains crateName then 2
  else 1

end Use

structure SourceFile where
  attributes : List String
  uses : List Use
  items : List (List Fragment)

namespace SourceFile

def empty : SourceFile := ⟨[], [], []⟩

/-- Adds an import, unless it is there. -/
def addUse (file : SourceFile) (u : Use) : SourceFile :=
  if file.uses.contains u then file else { file with uses := file.uses ++ [u] }

def addItem (file : SourceFile) (item : List Fragment) : SourceFile :=
  { file with items := file.items ++ [item] }

def isEmpty (file : SourceFile) : Bool :=
  file.attributes.isEmpty && file.uses.isEmpty && file.items.isEmpty

/-- The attributes as fragments. -/
def attributeLines (file : SourceFile) : List Fragment :=
  file.attributes.map fun a => .line ("#![" ++ a ++ "]")

/-- The imports of a group as fragments, in the order in which they were added. -/
def useLines (file : SourceFile) (group : Nat) : List Fragment :=
  (file.uses.filter (·.group == group)).map (.line ·.text)

/-- The parts of a file between which a blank line stands. -/
def sections (file : SourceFile) : List (List Fragment) :=
  ([file.attributeLines, file.useLines 0, file.useLines 1, file.useLines 2].filter (! ·.isEmpty))
    ++ file.items

def text (file : SourceFile) : String :=
  "\n".intercalate (file.sections.map (Fragment.textAll (Indent.spaces 4).text 0))

end SourceFile

end StackCompiler.Rust
