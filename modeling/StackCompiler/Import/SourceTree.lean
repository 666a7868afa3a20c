import StackCompiler.Import.Cycle
import StackCompiler.Import.Entry
import StackCompiler.Rust.ExprText
import StackCompiler.Rust.SourceFile

/-!
The generated module: a file for each group of declarations, and one that joins them.
-/
namespace StackCompiler.Import

/-- A file under the directory of the module. -/
structure GeneratedFile where
  path : String
  content : String

/-- The first line of every generated file. -/
def generatedHeader : String :=
  "// Code generated by stratus import. DO NOT EDIT.\n"

/-- A text under the line that says that it is generated. -/
def underHeader (body : String) : String :=
  generatedHeader ++ "\n" ++ body

def generatedFile (path body : String) : GeneratedFile :=
  ⟨path, underHeader body⟩

/-- The resource library that generated source uses, unless another is given. -/
def defaultPackage : String := "stratus_cfn"

def staticLine (s : Static) : String :=
  "pub static " ++ s.ident ++ ": LazyLock<" ++ s.type ++ "> = LazyLock::new(|| "
    ++ s.body.text .arg ++ ");"

/-- A declaration with its documentation. -/
def staticItem (s : Static) : List Rust.Fragment :=
  s.docs.map .doc ++ s.comment.toList.map .comment ++ [.line (staticLine s)]

/-- The imports that declarations need. -/
def usesFor (package : String) (statics : List Static) : List Rust.Use :=
  let homes := sortedNames (statics.filterMap (·.home))
  [⟨"std::sync", ["LazyLock"]⟩]
    ++ (if statics.any (·.body.usesJson) then [⟨"serde_json", ["json"]⟩] else [])
    ++ [⟨package ++ "::prelude::*", []⟩]
    ++ (if homes.isEmpty then [] else [⟨package, homes⟩])
    ++ [⟨"super::*", []⟩]

/-- The file of a group with these declarations. -/
def groupFile (package : String) (statics : List Static) : Rust.SourceFile :=
  let file := (usesFor package statics).foldl Rust.SourceFile.addUse .empty
  statics.foldl (fun file s => file.addItem (staticItem s)) file

/-- The file that joins the files of `groups`. -/
def rootFile (groups : List FileGroup) : Rust.SourceFile :=
  let file := { Rust.SourceFile.empty with
    attributes := ["allow(non_upper_case_globals, unused_imports)"] }
  if groups.isEmpty then file
  else
    (file.addItem (groups.map fun g => .line ("mod " ++ g.stem ++ ";"))).addItem
      (groups.map fun g => .line ("pub use " ++ g.stem ++ "::*;"))

/-- The groups that have declarations, with these. -/
def groupStatics (statics : List Static) : List (FileGroup × List Static) :=
  (FileGroup.all.map fun g => (g, statics.filter (·.group == g))).filter (! ·.2.isEmpty)

def renderFiles (package : String) (statics : List Static) : List GeneratedFile :=
  let groups := groupStatics statics
  generatedFile "mod.rs" (rootFile (groups.map (·.1))).text
    :: groups.map fun (g, members) => generatedFile (g.stem ++ ".rs") (groupFile package members).text

/-- What is generated from a template. -/
structure Generated where
  files : List GeneratedFile
  progress : Progress
  broken : List BrokenEdge

def generate (schema : Schema) (package : String) (t : Template) : Except ImportError Generated := do
  let (statics, progress) ← lowerTemplate schema t
  let (statics, broken) := breakCycles statics
  let progress := progress.advanceAll .valueFlattened .cyclesBroken
  return ⟨renderFiles package statics, progress.advanceAll .cyclesBroken .emitted, broken⟩

end StackCompiler.Import
