import StackCompiler.Command.Arguments
import StackCompiler.Command.Config
import StackCompiler.Command.Directory
import StackCompiler.Command.Report
import StackCompiler.Declaration.Build
import StackCompiler.Declaration.Reader
import StackCompiler.Template.Document
import StackCompiler.Template.Emit
import StackCompiler.Template.References

/-!
The commands: building a template from declarations, importing a template as source,
and checking one.
-/
namespace StackCompiler.Command

variable {m : Type → Type} [Monad m]

/-- Steps that may fail with a problem. -/
abbrev Attempt (m : Type → Type) (α : Type) := ExceptT String m α

/-- The outcome of an attempt at one. -/
def Attempt.outcome (attempt : Attempt m Outcome) : m Outcome := do
  match ← attempt.run with
  | .ok o => return o
  | .error problem => return .failed problem

/-- The value of a step, or the message of its error. -/
def orProblem {ε α : Type} (message : ε → String) : Except ε α → Attempt m α
  | .ok a => pure a
  | .error e => throw (message e)

def readFile (files : FileAccess m) (path : String) : Attempt m String := do
  match ← files.read? path with
  | some text => return text
  | none => throw ("failed to read '" ++ path ++ "'")

def writeFile (files : FileAccess m) (path content : String) : Attempt m Unit := do
  if ! (← files.write path content) then throw ("failed to write '" ++ path ++ "'")

/-! ### Configuration -/

/-- The defaults at a path that is given, or at the standard one if there is a file. -/
def loadConfig (files : FileAccess m) (given : Option String) : Attempt m Config := do
  let path := given.getD Config.standardPath
  if given.isNone && ! (← files.contains path) then return {}
  match Config.parse? (← readFile files path) with
  | some config => return config
  | none => throw ("invalid config '" ++ path ++ "'")

/-! ### Actions -/

def readTemplate (files : FileAccess m) (path : String) : Attempt m (Template × Format) := do
  orProblem TemplateError.message (Template.parse (← readFile files path))

def undefinedWarnings (t : Template) : List String :=
  t.undefinedReferences.map Template.Reference.undefinedMessage

def build (files : FileAccess m) (config : BuildDefaults) (args : BuildArgs) : Attempt m Outcome := do
  let text ← readFile files args.graph
  let declarations ← orProblem Json.Fault.message (Declarations.parse text)
  if args.orderOnly then
    let names ← orProblem BuildError.message declarations.order
    return { exit := 0, output := Report.order names }
  else
    let format := (args.format <|> config.format).getD .json
    let t ← orProblem BuildError.message declarations.build
    let document ← orProblem TemplateError.message (t.emit format)
    match args.output <|> config.output with
    | none => return { exit := 0, output := document }
    | some path =>
      writeFile files path document
      return { exit := 0, output := Report.written path format t }

/-- Where source is generated unless another directory is given. -/
def standardOutput : String := "src/stack"

def readSchema (files : FileAccess m) : Option String → Attempt m Schema
  | none => pure .inferred
  | some path => do orProblem Import.ImportError.message (Import.schemaOf path (← readFile files path))

/-- Writes generated files, unless there are some already and `force` is not set. -/
def writeGenerated (files : FileAccess m) (directory : String) (force : Bool)
    (generated : List Import.GeneratedFile) : Attempt m Unit := do
  if ! force && (← files.contains (joinPath directory "mod.rs")) then
    throw ("'" ++ directory ++ "' already contains a generated module, pass --force to overwrite it")
  for file in generated do
    writeFile files (joinPath directory file.path) file.content

def importing (files : FileAccess m) (config : ImportDefaults) (args : ImportArgs) :
    Attempt m Outcome := do
  let (t, _) ← readTemplate files args.template
  let schema ← readSchema files (args.schema <|> config.schema)
  let package := (args.package <|> config.package).getD Import.defaultPackage
  let generated ← orProblem Import.ImportError.message (Import.generate schema package t)
  let resources := t.resources.length
  let report ←
    if args.dryRun then pure (Report.preview args.template resources generated.files)
    else
      let directory := (args.output <|> config.output).getD standardOutput
      writeGenerated files directory args.force generated.files
      pure (Report.generated directory resources generated.files)
  return {
    exit := 0,
    output := Report.brokenCycles generated.broken ++ report,
    warnings := undefinedWarnings t ++ Report.skippedWarnings generated.progress.skipped }

/-- Checks a template. In strict checks, references that lead nowhere are a failure. -/
def check (files : FileAccess m) (path : String) (strict : Bool) : Attempt m Outcome := do
  let (t, format) ← readTemplate files path
  let warnings := undefinedWarnings t
  return {
    exit := if strict && ! warnings.isEmpty then 1 else 0,
    output := Report.checked path format t t.implicitResources,
    warnings := warnings }

/-! ### Everything -/

def versionText : String := "stratus 0.3.0\n"

/-- The actions and their arguments. How a parser of command lines words and lays out its help is left
    open: this text stands for it. -/
def helpText : String :=
  "Compile declaration graphs to CloudFormation templates and back\n\n"
    ++ "Usage: stratus [--config <CONFIG>] <COMMAND>\n\nCommands:\n"
    ++ "  build <GRAPH> [-o <OUTPUT>] [-f <FORMAT>] [--order]\n"
    ++ "  import <TEMPLATE> [-o <OUTPUT>] [--schema <SCHEMA>] [--package <PACKAGE>]"
    ++ " [--dry-run] [--force]\n"
    ++ "  check <TEMPLATE> [--strict]\n"
    ++ "  completions <SHELL>\n"
    ++ "  help [COMMAND]\n"

/-- A line that makes a shell complete the words of actions. It stands for the script that a parser of
    command lines generates, which is left open. -/
def completionText (shell : Shell) : String :=
  let words := " ".intercalate (Arguments.actionWords ++ ["help"])
  match shell with
  | .bash => "complete -W '" ++ words ++ "' stratus\n"
  | .zsh => "compctl -k '(" ++ words ++ ")' stratus\n"
  | .fish => "complete -c stratus -f -a '" ++ words ++ "'\n"
  | .elvish => "set edit:completion:arg-completer[stratus] = \x7b|@a| put " ++ words ++ " \x7d\n"
  | .powershell =>
    "Register-ArgumentCompleter -Native -CommandName stratus -ScriptBlock \x7b '" ++ words
      ++ "' -split ' ' \x7d\n"

/-- Carries out an action. The configuration is read first, whatever the action. -/
def invoke (files : FileAccess m) (i : Invocation) : Attempt m Outcome := do
  let config ← loadConfig files i.config
  match i.action with
  | .build args => build files config.build args
  | .importing args => importing files config.importing args
  | .check path strict => check files path strict
  | .completions shell => return { exit := 0, output := completionText shell }

/-- Carries out a command line. -/
def run (files : FileAccess m) (words : List String) : m Outcome :=
  match Arguments.parse words with
  | .ok i => (invoke files i).outcome
  | .error .help => pure { exit := 0, output := helpText }
  | .error .version => pure { exit := 0, output := versionText }
  | .error (.misuse problem) => pure (.misused problem)

end StackCompiler.Command
