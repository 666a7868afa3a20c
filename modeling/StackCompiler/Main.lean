import StackCompiler.Command.Run

/-!
The command line program.
-/
namespace StackCompiler.Main

open Command

/-- Whether a step succeeds. -/
def succeeds (step : IO Unit) : IO Bool := do
  try
    step
    return true
  catch _ => return false

/-- The directory of a path, if it names one. -/
def parentOf (path : String) : Option String :=
  match Text.splitLast? ['/'] path.toList with
  | some (parent, _) => if parent.isEmpty then none else some (String.ofList parent)
  | none => none

/-- The files of the machine. -/
def diskAccess : FileAccess IO where
  contains path := do
    try
      (← IO.FS.realPath path).pathExists
    catch _ => return false
  read? path := do
    try
      return some (← IO.FS.readFile path)
    catch _ => return none
  write path content := succeeds do
    if let some parent := parentOf path then IO.FS.createDirAll parent
    IO.FS.writeFile path content

end StackCompiler.Main

open StackCompiler in
/-- Carries out the command line and says how that went. -/
def main (words : List String) : IO UInt32 := do
  let o ← Command.run Main.diskAccess words
  IO.eprint o.warningText
  IO.print o.output
  if let some problem := o.problem then IO.eprintln ("error: " ++ problem)
  return o.exit.toUInt32
