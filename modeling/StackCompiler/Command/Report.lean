import StackCompiler.Import.SourceTree
import StackCompiler.Template.Format
import StackCompiler.Text.Lines

/-!
What commands print: reports on standard output and warnings on standard error.
-/
namespace StackCompiler.Command

/-- What a command leaves behind. -/
structure Outcome where
  exit : Nat
  output : String := ""
  warnings : List String := []
  /-- Why the command failed. -/
  problem : Option String := none

namespace Outcome

/-- The text of the warnings. -/
def warningText (o : Outcome) : String :=
  String.join (o.warnings.map fun w => "warning: " ++ w ++ "\n")

/-- The lines of the warnings that start one. -/
def warningLines (o : Outcome) : List String :=
  ((Text.lines o.warningText.toList).filter ("warning: ".toList.isPrefixOf ·)).map String.ofList

def failed (problem : String) : Outcome :=
  { exit := 1, problem := some problem }

/-- A command line that makes no sense. -/
def misused (problem : String) : Outcome :=
  { exit := 2, problem := some problem }

end Outcome

namespace Report

/-! ### Parts -/

def heading (name : String) : String :=
  name ++ ":\n"

def keyValue (key value : String) : String :=
  key ++ ": " ++ value ++ "\n"

def numberedItem (index : Nat) (text : String) : String :=
  "  " ++ toString index ++ ". " ++ text ++ "\n"

def listItem (text : String) : String :=
  "  - " ++ text ++ "\n"

def addedItem (text : String) : String :=
  "  + " ++ text ++ "\n"

def divider (label : String) : String :=
  "── " ++ label ++ " ──\n"

def count (key : String) (n : Nat) : String :=
  keyValue key (toString n)

/-! ### Building -/

/-- Names in order, with their numbers. -/
def order (names : List String) : String :=
  String.join ((names.zipIdx 1).map fun (name, index) => numberedItem index name)

/-- A template was written to `path`. -/
def written (path : String) (format : Format) (t : Template) : String :=
  keyValue "Wrote" (path ++ " (" ++ format.name ++ ")")
    ++ count "Resources" t.resources.length
    ++ (if t.hasServerlessTransform then keyValue "Transform" Template.serverlessTransform else "")

/-! ### Checking -/

def checked (path : String) (format : Format) (t : Template) (implicit : List String) : String :=
  keyValue "Template" (path ++ " (" ++ format.name ++ ")")
    ++ count "Resources" t.resources.length
    ++ count "Parameters" t.parameters.length
    ++ count "Outputs" t.outputs.length
    ++ (if implicit.isEmpty then ""
        else "\n" ++ heading "Implicit resources" ++ String.join (implicit.map listItem))

/-! ### Importing -/

def brokenCycles (broken : List Import.BrokenEdge) : String :=
  if broken.isEmpty then ""
  else
    heading "Broken cycles"
      ++ String.join (broken.map fun e => listItem (e.source ++ " -> " ++ e.target)) ++ "\n"

/-- Files that would be written. -/
def preview (path : String) (resources : Nat) (files : List Import.GeneratedFile) : String :=
  String.join (files.map fun f => divider f.path ++ f.content ++ "\n") ++ "\n"
    ++ keyValue "Dry run"
      (toString files.length ++ " file(s) from " ++ toString resources ++ " resource(s) in " ++ path)

/-- Files that were written to a directory. -/
def generated (directory : String) (resources : Nat) (files : List Import.GeneratedFile) : String :=
  heading ("Generated " ++ directory) ++ String.join (files.map (addedItem ·.path)) ++ "\n"
    ++ count "Resources" resources

/-- The warnings for resources that were skipped. -/
def skippedWarnings (skipped : List (String × String)) : List String :=
  skipped.map fun (name, reason) => "unsupported resource " ++ name ++ ": " ++ reason

end Report

end StackCompiler.Command
