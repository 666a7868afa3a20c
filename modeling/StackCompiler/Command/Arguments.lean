import StackCompiler.Members
import StackCompiler.Template.Format

/-!
Command lines. Options and flags may stand before and after the operands; after two
dashes everything is an operand.
-/
namespace StackCompiler.Command

inductive Shell where
  | bash | elvish | fish | powershell | zsh
deriving DecidableEq

def Shell.name : Shell → String
  | bash => "bash"
  | elvish => "elvish"
  | fish => "fish"
  | powershell => "powershell"
  | zsh => "zsh"

def Shell.all : List Shell :=
  [bash, elvish, fish, powershell, zsh]

structure BuildArgs where
  graph : String
  output : Option String
  format : Option Format
  orderOnly : Bool

structure ImportArgs where
  template : String
  output : Option String
  schema : Option String
  package : Option String
  dryRun : Bool
  force : Bool

inductive Action where
  | build (args : BuildArgs)
  | importing (args : ImportArgs)
  | check (template : String) (strict : Bool)
  | completions (shell : Shell)

structure Invocation where
  config : Option String
  action : Action

/-- Why a command line is no invocation. -/
inductive Stop where
  | help
  | version
  | misuse (problem : String)

namespace Arguments

/-! ### What may be given -/

inductive ValueKind where
  | path
  | text
  | format
  | shell
deriving DecidableEq

/-- Whether a text is a value of a kind. -/
def ValueKind.accepts : ValueKind → String → Bool
  | path, s => ! s.isEmpty
  | text, _ => true
  | format, s => (Format.ofName? s).isSome
  | shell, s => Shell.all.any (·.name == s)

/-- An option, or a flag where it has no kind of value. -/
structure OptionForm where
  name : String
  letter : Option Char := none
  value : Option ValueKind := none

structure Level where
  options : List OptionForm
  operands : List ValueKind := []
  /-- Words that end this level. -/
  words : List String := []
  /-- Whether the version can be asked for. -/
  hasVersion : Bool := false

def configOption : OptionForm :=
  { name := "config", value := some .path }

def outputOption : OptionForm :=
  { name := "output", letter := some 'o', value := some .path }

def actionWords : List String :=
  ["build", "import", "check", "completions"]

def top : Level :=
  { options := [configOption], words := actionWords ++ ["help"], hasVersion := true }

def buildLevel : Level :=
  { options := [configOption, outputOption,
      { name := "format", letter := some 'f', value := some .format }, { name := "order" }],
    operands := [.path] }

def importLevel : Level :=
  { options := [configOption, outputOption, { name := "schema", value := some .path },
      { name := "package", value := some .text }, { name := "dry-run" }, { name := "force" }],
    operands := [.path] }

def checkLevel : Level :=
  { options := [configOption, { name := "strict" }], operands := [.path] }

def completionsLevel : Level :=
  { options := [configOption], operands := [.shell] }

/-! ### Reading -/

/-- What has been given at a level. Flags have an empty value. -/
structure Given where
  options : List (String × String) := []
  operands : List String := []
  /-- An option with the word after it, which has not been looked at. -/
  pending : Option (OptionForm × String) := none

def unexpected {α : Type} (word : String) : Except Stop α :=
  throw (.misuse ("unexpected argument '" ++ word ++ "' found"))

/-- Adds an option, which can be given once. -/
def Given.add (g : Given) (form : OptionForm) (value : String) : Except Stop Given :=
  if hasMember form.name g.options then
    throw (.misuse ("the argument '--" ++ form.name ++ "' cannot be used multiple times"))
  else if form.value.all (·.accepts value) then
    pure { g with options := (form.name, value) :: g.options }
  else throw (.misuse ("invalid value '" ++ value ++ "' for '--" ++ form.name ++ "'"))

/-- Looks at the word that has been left for later. -/
def Given.settle (g : Given) : Except Stop Given :=
  match g.pending with
  | some (form, value) => { g with pending := none }.add form value
  | none => pure g

/-- Adds an operand, for which there must be room. -/
def Given.addOperand (level : Level) (g : Given) (word : String) : Except Stop Given :=
  match level.operands[g.operands.length]? with
  | none => unexpected word
  | some kind =>
    if kind.accepts word then pure { g with operands := g.operands ++ [word] }
    else throw (.misuse ("invalid value '" ++ word ++ "'"))

/-- Whether a word is an option rather than a value. -/
def looksLikeOption (word : String) : Bool :=
  word.toList.head? == some '-' && word != "-"

/-- What a long option says: its name and, after an equals sign, its value. -/
def longParts (cs : List Char) : String × Option String :=
  let name := cs.takeWhile (· != '=')
  let rest := cs.dropWhile (· != '=')
  (String.ofList name, if rest.isEmpty then none else some (String.ofList rest.tail))

/-- What letters after a dash give: flags, and perhaps last an option with the value after it.
    An option whose value has yet to come is returned. -/
def letters (level : Level) : List Char → Given → Except Stop (Given × Option OptionForm)
  | [], g => pure (g, none)
  | c :: rest, g =>
    if c == 'h' then throw .help
    else if c == 'V' && level.hasVersion then throw .version
    else
      match level.options.find? (·.letter == some c) with
      | none => unexpected (String.ofList ['-', c])
      | some form =>
        if form.value.isNone then do letters level rest (← g.add form "")
        else if rest.isEmpty then pure (g, some form)
        else do
          let value := if rest.head? == some '=' then rest.tail else rest
          return (← g.add form (String.ofList value), none)

/-- What a long option gives; one whose value has yet to come is returned. -/
def long (level : Level) (cs : List Char) (g : Given) : Except Stop (Given × Option OptionForm) :=
  let (name, value) := longParts cs
  if name == "help" && value.isNone then throw .help
  else if name == "version" && level.hasVersion && value.isNone then throw .version
  else
    match level.options.find? (·.name == name) with
    | none => unexpected ("--" ++ name)
    | some form =>
      match form.value, value with
      | none, none => do return (← g.add form "", none)
      | none, some _ => unexpected ("--" ++ name)
      | some _, some v => do return (← g.add form v, none)
      | some _, none => pure (g, some form)

/-- How a word is taken. -/
inductive Awaiting where
  | anything
  | valueOf (form : OptionForm)
  /-- After two dashes. -/
  | operands

/-- What is awaited after an option. -/
def Awaiting.after : Option OptionForm → Awaiting
  | some form => .valueOf form
  | none => .anything

/-- Reads the words of a level, up to a word that ends it. The value of an option is looked at when
    the next word is taken, so one before a word that ends the level is left for later. -/
def scan (level : Level) : Awaiting → List String → Given → Except Stop (Given × List String)
  | .valueOf form, [], _ =>
    throw (.misuse ("a value is required for '--" ++ form.name ++ "' but none was supplied"))
  | _, [], g => do return (← g.settle, [])
  | .valueOf form, word :: rest, g => do
    if looksLikeOption word then
      throw (.misuse ("a value is required for '--" ++ form.name ++ "' but none was supplied"))
    else scan level .anything rest { g with pending := some (form, word) }
  | .operands, word :: rest, g => do
    scan level .operands rest (← (← g.settle).addOperand level word)
  | .anything, word :: rest, g => do
    if level.words.contains word then return (g, word :: rest)
    else
      let g ← g.settle
      match word.toList with
      | ['-', '-'] => scan level .operands rest g
      | '-' :: '-' :: cs =>
        let (g, pending) ← long level cs g
        scan level (.after pending) rest g
      | '-' :: c :: cs =>
        let (g, pending) ← letters level (c :: cs) g
        scan level (.after pending) rest g
      | _ => scan level .anything rest (← g.addOperand level word)

/-! ### Invocations -/

def Given.option? (g : Given) (name : String) : Option String :=
  g.options.lookup name

def Given.flag (g : Given) (name : String) : Bool :=
  (g.option? name).isSome

/-- The one operand of an action. -/
def Given.operand (g : Given) : Except Stop String :=
  match g.operands with
  | word :: _ => pure word
  | [] => throw (.misuse "a required argument was not provided")

/-- Reads all words of a level that no word ends. -/
def scanAll (level : Level) (words : List String) : Except Stop Given :=
  (scan level .anything words {}).map (·.1)

/-- The action that a word and those after it say, with the configuration given among these. -/
def actionOf (word : String) (words : List String) : Except Stop (Option String × Action) :=
  match word with
  | "build" => do
    let g ← scanAll buildLevel words
    let args : BuildArgs := ⟨← g.operand, g.option? "output",
      (g.option? "format").bind Format.ofName?, g.flag "order"⟩
    return (g.option? "config", .build args)
  | "import" => do
    let g ← scanAll importLevel words
    let args : ImportArgs := ⟨← g.operand, g.option? "output", g.option? "schema",
      g.option? "package", g.flag "dry-run", g.flag "force"⟩
    return (g.option? "config", .importing args)
  | "check" => do
    let g ← scanAll checkLevel words
    return (g.option? "config", .check (← g.operand) (g.flag "strict"))
  | "completions" => do
    let g ← scanAll completionsLevel words
    let name ← g.operand
    match Shell.all.find? (·.name == name) with
    | some shell => return (g.option? "config", .completions shell)
    | none => unexpected name
  | _ => unexpected word

/-- What is said after the word for help: at most one action. -/
def helpOn : List String → Except Stop Invocation
  | [] => throw .help
  | [word] => if (actionWords ++ ["help"]).contains word then throw .help else unexpected word
  | word :: more :: _ => if (actionWords ++ ["help"]).contains word then unexpected more else unexpected word

/-- The invocation that words say. -/
def parse (words : List String) : Except Stop Invocation := do
  let (g, rest) ← scan top .anything words {}
  match rest with
  | [] => throw (.misuse "a subcommand is required but one was not provided")
  | "help" :: more => helpOn more
  | word :: more =>
    let (config, action) ← actionOf word more
    let g ← g.settle
    return ⟨config <|> g.option? "config", action⟩

end Arguments

end StackCompiler.Command
