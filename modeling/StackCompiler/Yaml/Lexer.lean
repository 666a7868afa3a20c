import StackCompiler.Yaml.ScalarText
import StackCompiler.Yaml.Token

/-!
Cutting a YAML text into tokens. In block style, indentation opens and closes
collections. A scalar or collection on one line may turn out to be a key when a colon
follows it: the place before it is remembered until then.
-/
namespace StackCompiler.Yaml

/-- The start of what may be a key. -/
structure PossibleKey where
  /-- Whether it must be a key, since nothing else may stand at its indentation. -/
  required : Bool
  /-- How many tokens are before it. -/
  position : Nat
  index : Nat
  line : Nat
  column : Nat

structure Lexer where
  cursor : Cursor
  /-- The tokens up to here, last one first. -/
  tokens : List Token
  count : Nat
  /-- The indentation of the block that is open, or minus one. -/
  indent : Int
  /-- The indentations of the blocks around it. -/
  indents : List Int
  /-- What may be a key at each level of brackets, the innermost first. The last is outside all
      brackets. -/
  keys : List (Option PossibleKey)
  /-- Whether a key may start here. -/
  keyAllowed : Bool

/-- A step of cutting a text into tokens; nothing where the text is no document. -/
abbrev Lex (α : Type) := StateT Lexer Option α

namespace Lexer

/-- Characters that a key on one line may take. -/
def keyLimit : Nat := 1024

def start (text : List Char) : Lexer :=
  ⟨⟨text, 0, 0, 0⟩, [], 0, -1, [], [none], true⟩

def inFlow (l : Lexer) : Bool :=
  1 < l.keys.length

end Lexer

namespace Lex

def refuse {α : Type} : Lex α :=
  StateT.lift none

def cursor : Lex Cursor := do
  return (← get).cursor

def inFlow : Lex Bool := do
  return (← get).inFlow

def moveTo (c : Cursor) : Lex Unit :=
  modify fun l => { l with cursor := c }

def advance (count : Nat) : Lex Unit :=
  modify fun l => { l with cursor := l.cursor.advance count }

def allowKey (allowed : Bool) : Lex Unit :=
  modify fun l => { l with keyAllowed := allowed }

def emit (t : Token) : Lex Unit :=
  modify fun l => { l with tokens := t :: l.tokens, count := l.count + 1 }

/-- Puts a token before all but the first `position`. -/
def insert (position : Nat) (t : Token) : Lex Unit :=
  modify fun l =>
    let later := l.count - position
    { l with tokens := l.tokens.take later ++ t :: l.tokens.drop later, count := l.count + 1 }

/-! ### Blocks -/

/-- Opens a block at `column`, unless one is open there. -/
def openBlock (column : Nat) (put : Lex Unit) : Lex Unit := do
  let l ← get
  if ! l.inFlow && l.indent < column then
    set { l with indent := (column : Int), indents := l.indent :: l.indents }
    put

/-- The state after closing the blocks that are indented further than `column`, where `outer` are
    the indentations around the open block. -/
def closedBlocks (column : Int) : (outer : List Int) → Lexer → Lexer
  | [], l => l
  | indent :: rest, l =>
    if column < l.indent then
      closedBlocks column rest { l with
        tokens := .blockEnd :: l.tokens, count := l.count + 1, indent := indent, indents := rest }
    else l

/-- Closes the blocks that are indented further than `column`. -/
def closeBlocks (column : Int) : Lex Unit :=
  modify fun l => if l.inFlow then l else closedBlocks column l.indents l

/-! ### Keys -/

/-- Gives up what may be a key; one that must be a key cannot be given up. -/
def dropKey : Lex Unit := do
  let l ← get
  match l.keys with
  | some k :: outer => if k.required then refuse else set { l with keys := none :: outer }
  | _ => pure ()

/-- Remembers that a key may start here. -/
def noteKey : Lex Unit := do
  let l ← get
  if l.keyAllowed then
    dropKey
    let c := l.cursor
    let key : PossibleKey :=
      ⟨! l.inFlow && l.indent == (c.column : Int), l.count, c.index, c.line, c.column⟩
    modify fun l => { l with keys := some key :: l.keys.drop 1 }

/-- Gives up what can no longer be a key: its line has ended or it is too long. -/
def dropStaleKeys : Lex Unit := do
  let l ← get
  let isStale (k : PossibleKey) :=
    k.line < l.cursor.line || k.index + Lexer.keyLimit < l.cursor.index
  if l.keys.any fun key => key.any fun k => k.required && isStale k then refuse
  else set { l with keys := l.keys.map (Option.filter (! isStale ·)) }

/-! ### Between tokens -/

/-- Passes white space, comments and line breaks. Outside brackets, a tab must not stand where a
    key may start. A mark of the byte order may start a line, and takes a column of it. -/
def skipToToken : (fuel : Nat) → Lex Unit
  | 0 => pure ()
  | fuel + 1 => do
    let l ← get
    let c := l.cursor
    let c := if c.column == 0 && c.head? == some byteOrderMark then c.advance 1 else c
    let c := c.skipWhile fun ch => ch == ' ' || (ch == '\t' && (l.inFlow || ! l.keyAllowed))
    let c := if c.head? == some '#' then c.skipWhile (! isBreak ·) else c
    if c.head?.any isBreak then
      set { l with cursor := c.nextLine, keyAllowed := l.keyAllowed || ! l.inFlow }
      skipToToken fuel
    else moveTo c

/-! ### Tags and directives -/

/-- Reads the characters of a tag, at most `fuel`, and gives the bytes that they spell. -/
def tagBytes (inBrackets : Bool) (fuel : Nat) : Lex (List UInt8) := do
  let c ← cursor
  let (bytes, used) ← StateT.lift (Tag.spelled? inBrackets fuel c.rest)
  advance used
  return bytes

/-- Reads an exclamation mark, a name, and perhaps another exclamation mark. -/
def tagHandle : Lex (List Char) := do
  let c ← cursor
  if c.head? != some '!' then refuse
  else
    let (name, c) := (c.advance 1).takeWhile isWordChar
    if c.head? == some '!' then
      moveTo (c.advance 1)
      return '!' :: name ++ ['!']
    else
      moveTo c
      return '!' :: name

/-- Reads a tag: a handle and a rest, of which the handle may be empty. -/
def readTag (fuel : Nat) : Lex Token := do
  let c ← cursor
  if c.second? == some '<' then
    advance 2
    let bytes ← tagBytes true fuel
    let c ← cursor
    if bytes.isEmpty || c.head? != some '>' then refuse
    else
      advance 1
      return .tag "" (.ofBytes bytes)
  else
    let handle ← tagHandle
    if 1 < handle.length && handle.getLast? == some '!' then
      let bytes ← tagBytes false fuel
      if bytes.isEmpty then refuse else return .tag (String.ofList handle) (.ofBytes bytes)
    else
      let rest := Tag.ofText (String.ofList (handle.drop 1)) ++ Tag.ofBytes (← tagBytes false fuel)
      if rest.isEmpty then return .tag "" (.ofText "!") else return .tag "!" rest

/-- Nothing but white space and a comment may follow on the line. -/
def endOfLine : Lex Unit := do
  let c := (← cursor).skipWhile isSpaceOrTab
  let c := if c.head? == some '#' then c.skipWhile (! isBreak ·) else c
  if ! endsLine c.head? then refuse
  else moveTo (if c.head?.isSome then c.nextLine else c)

/-- Reads a part of a version number. -/
def versionNumber : Lex Nat := do
  let (digits, c) := (← cursor).takeWhile Char.isDigit
  if digits.isEmpty || 9 < digits.length then refuse
  else
    moveTo c
    return digits.foldl (fun total d => 10 * total + (d.toNat - '0'.toNat)) 0

def skipBlanks : Lex Unit := do
  moveTo ((← cursor).skipWhile isSpaceOrTab)

/-- Reads a directive whose percent sign is next. -/
def readDirective (fuel : Nat) : Lex Token := do
  advance 1
  let (name, c) := (← cursor).takeWhile isWordChar
  if name.isEmpty || ! endsWord c.head? then refuse
  else
    moveTo c
    skipBlanks
    match String.ofList name with
    | "YAML" =>
      let major ← versionNumber
      if (← cursor).head? != some '.' then refuse
      else
        advance 1
        let minor ← versionNumber
        endOfLine
        return .versionDirective major minor
    | "TAG" =>
      let handle ← tagHandle
      if handle.length != 1 && handle.getLast? != some '!' then refuse
      else if ! (← cursor).head?.any isSpaceOrTab then refuse
      else
        skipBlanks
        let meaning ← tagBytes true fuel
        if meaning.isEmpty || ! endsWord (← cursor).head? then refuse
        else
          endOfLine
          return .tagDirective (String.ofList handle) (.ofBytes meaning)
    | _ => refuse

/-! ### Tokens -/

/-- Reads the name of an anchor or alias, whose mark is next. -/
def readName : Lex String := do
  let (name, c) := ((← cursor).advance 1).takeWhile isWordChar
  if name.isEmpty || ! (endsWord c.head? || c.head?.any "?:,]\x7d%@\x60".toList.contains) then refuse
  else
    moveTo c
    return String.ofList name

/-- A token at the start of a line that ends all blocks. -/
def lineToken (read : Lex Token) : Lex Unit := do
  closeBlocks (-1)
  dropKey
  allowKey false
  emit (← read)

def openFlow (t : Token) : Lex Unit := do
  noteKey
  modify fun l => { l with keys := none :: l.keys }
  allowKey true
  advance 1
  emit t

def closeFlow (t : Token) : Lex Unit := do
  dropKey
  modify fun l => if l.inFlow then { l with keys := l.keys.drop 1 } else l
  allowKey false
  advance 1
  emit t

def flowEntry : Lex Unit := do
  dropKey
  allowKey true
  advance 1
  emit .flowEntry

/-- Outside brackets, opens a block here, where a key must be allowed. -/
def blockHere (t : Token) : Lex Unit := do
  let l ← get
  if ! l.inFlow then
    if ! l.keyAllowed then refuse
    else openBlock l.cursor.column (emit t)

def blockEntry : Lex Unit := do
  blockHere .blockSequence
  dropKey
  allowKey true
  advance 1
  emit .blockEntry

def explicitKey : Lex Unit := do
  blockHere .blockMapping
  dropKey
  allowKey (! (← inFlow))
  advance 1
  emit .key

/-- A colon: what may be a key before it is one. -/
def value : Lex Unit := do
  let l ← get
  match l.keys.head?.join with
  | some k =>
    insert k.position .key
    openBlock k.column (insert k.position .blockMapping)
    modify fun l => { l with keys := none :: l.keys.drop 1 }
    allowKey false
  | none =>
    blockHere .blockMapping
    allowKey (! l.inFlow)
  advance 1
  emit .value

/-- A token that may be a key or the start of one. -/
def keyLike (read : Lex Token) : Lex Unit := do
  noteKey
  allowKey false
  emit (← read)

def quoted (quote : Char) (fuel : Nat) : Lex Token := do
  let (text, c) ← StateT.lift (quotedScalar quote fuel ((← cursor).advance 1) [])
  moveTo c
  return .scalar (String.ofList text) false

def block (literal : Bool) (fuel : Nat) : Lex Unit := do
  dropKey
  allowKey true
  let l ← get
  let (text, c) ← StateT.lift (blockScalar literal l.indent fuel (l.cursor.advance 1))
  moveTo c
  emit (.scalar (String.ofList text) false)

def plain (fuel : Nat) : Lex Token := do
  let l ← get
  let (text, c, broken) ← StateT.lift
    (plainScalar l.inFlow (l.indent + 1).toNat fuel l.cursor [] {})
  moveTo c
  if broken then allowKey true
  return .scalar (String.ofList text) true

/-- Characters that cannot start a plain scalar, wherever they stand. -/
def neverPlain : List Char :=
  ",[]\x7b\x7d#&*!|>'\"%@\x60".toList

/-- Whether a plain scalar starts with `c` before `next`. -/
def startsPlain (inFlow : Bool) (c : Char) (next : Option Char) : Bool :=
  if c == '-' then ! next.any isSpaceOrTab
  else if c == '?' || c == ':' then ! inFlow && ! endsWord next
  else ! isSpaceOrTab c && ! neverPlain.contains c

/-- The token that is next, at a character that starts one. There are fewer than `fuel` characters
    left. -/
def tokenAt (fuel : Nat) (c : Char) : Lex Unit := do
  let l ← get
  let next := l.cursor.second?
  let alone := l.inFlow || endsWord next
  if l.cursor.column == 0 && c == '%' then lineToken (readDirective fuel)
  else if l.cursor.atDocumentMark then
    lineToken do
      advance 3
      return if c == '-' then .documentStart else .documentEnd
  else if c == '[' then openFlow .flowSequence
  else if c == '\x7b' then openFlow .flowMapping
  else if c == ']' then closeFlow .flowSequenceEnd
  else if c == '\x7d' then closeFlow .flowMappingEnd
  else if c == ',' then flowEntry
  else if c == '-' && endsWord next then blockEntry
  else if c == '?' && alone then explicitKey
  else if c == ':' && alone then value
  else if c == '*' then keyLike (.alias <$> readName)
  else if c == '&' then keyLike (.anchor <$> readName)
  else if c == '!' then
    keyLike do
      let t ← readTag fuel
      let next := (← cursor).head?
      if endsWord next || (l.inFlow && next == some ',') then return t else refuse
  else if c == '|' && ! l.inFlow then block true fuel
  else if c == '>' && ! l.inFlow then block false fuel
  else if c == '\x27' || c == '\x22' then keyLike (quoted c fuel)
  else if startsPlain l.inFlow c next then keyLike (plain fuel)
  else refuse

/-- All tokens up to the end of the text, which has fewer than `fuel` characters. Every token takes
    at least one of them. -/
def all : (fuel : Nat) → Lex Unit
  | 0 => refuse
  | fuel + 1 => do
    skipToToken (fuel + 1)
    dropStaleKeys
    closeBlocks (← cursor).column
    match (← cursor).head? with
    | none =>
      closeBlocks (-1)
      dropKey
    | some c =>
      tokenAt (fuel + 1) c
      all fuel

end Lex

/-- The tokens of a text. -/
def tokens? (text : String) : Option (List Token) :=
  let cs := text.toList
  if cs.all isAllowed then
    ((Lex.all (cs.length + 2)).run (Lexer.start cs)).map fun (_, l) => l.tokens.reverse
  else none

end StackCompiler.Yaml
