import StackCompiler.Number.Text
import StackCompiler.Yaml.Style

/-!
YAML text of a tree, in block style. A value under a tag must not have a tag itself: such
a tree has no text.
-/
namespace StackCompiler.Yaml

/-- A text that is being written. -/
structure Pen where
  /-- What has been written, last character first. -/
  written : List Char
  column : Nat
  /-- Whether white space or nothing is before this place on the line. -/
  spaced : Bool
  /-- Whether only indentation and indicators are before it. -/
  indented : Bool

namespace Pen

def start : Pen := ⟨[], 0, true, true⟩

/-- Writes characters that are no line breaks. -/
def put (p : Pen) (cs : List Char) : Pen :=
  { p with written := cs.reverse ++ p.written, column := p.column + cs.length }

def newLine (p : Pen) : Pen :=
  { p with written := '\n' :: p.written, column := 0 }

/-- Goes to `indent`, on a new line unless this one has room for it. -/
def toIndent (p : Pen) (indent : Nat) : Pen :=
  let p :=
    if ! p.indented || indent < p.column || (p.column == indent && ! p.spaced) then p.newLine else p
  { p.put (List.replicate (indent - p.column) ' ') with spaced := true, indented := true }

/-- Writes a space unless there is one. -/
def space (p : Pen) : Pen :=
  if p.spaced then p else p.put [' ']

/-- Writes an indicator, after a space where it needs one. Some indicators leave the place as
    indented as it was. -/
def indicator (p : Pen) (cs : List Char) (needsSpace keepsIndent : Bool) : Pen :=
  let p := if needsSpace then p.space else p
  { p.put cs with spaced := false, indented := p.indented && keepsIndent }

/-- Writes text that no indentation precedes any more. -/
def content (p : Pen) (cs : List Char) : Pen :=
  { p.put cs with spaced := false, indented := false }

def tag (p : Pen) (name : Option String) : Pen :=
  match name with
  | some n => p.space.content ('!' :: n.toList)
  | none => p

/-- Writes the lines of a literal block at `indent`; `fresh` says that a line starts. -/
def literalLines (indent : Nat) : (fresh : Bool) → List Char → Pen → Pen
  | _, [], p => p
  | fresh, c :: rest, p =>
    if isBreak c then literalLines indent true rest { p.newLine with indented := true }
    else
      let p := if fresh then p.toIndent indent else p
      literalLines indent false rest { p.put [c] with indented := false }

def scalar (p : Pen) (indent : Nat) (style : Style) (cs : List Char) : Pen :=
  match style with
  | .plain => p.space.content cs
  | .single =>
    ((p.indicator ['\x27'] true false).content (cs.flatMap singleQuotedChar)).content ['\x27']
  | .double =>
    ((p.indicator ['\x22'] true false).content (cs.flatMap doubleQuotedChar)).content ['\x22']
  | .literal =>
    let p := (p.indicator ['|'] true false).content (literalHints cs)
    literalLines indent true cs { p.newLine with spaced := true, indented := true }

end Pen

/-- Bytes that a key on one line may take. -/
def simpleKeyLimit : Nat := 128

namespace Tree

/-- The text of a scalar and the style that suits it best. -/
def scalarText? : Tree → Option (String × Style)
  | .null => some ("null", .plain)
  | .bool true => some ("true", .plain)
  | .bool false => some ("false", .plain)
  | .num n => some (n.text .yaml, .plain)
  | .str s => some (s, preferredStyle s)
  | _ => none

/-- Whether a key can stand on one line before its colon. -/
def isSimpleKey (key : Tree) : Bool :=
  match key.scalarText? with
  | some (s, _) => ! s.toList.any isBreak && s.utf8ByteSize ≤ simpleKeyLimit
  | none => false

/-- Where a node stands. -/
structure Context where
  /-- The indentation of the collection around it, if there is one. -/
  indent : Option Nat
  inMapping : Bool
  simpleKey : Bool

/-- The indentation of what stands inside a node. -/
def Context.inner (c : Context) : Nat :=
  (c.indent.map (· + 2)).getD 0

def writeScalar (c : Context) (tag : Option String) (s : String) (preferred : Style) (p : Pen) : Pen :=
  let cs := s.toList
  let style := preferred.select (.of cs) cs.isEmpty c.simpleKey
  (p.tag tag).scalar ((c.indent.map (· + 2)).getD 2) style cs

mutual

/-- Writes a tree after the tag `tag`. -/
def write (c : Context) (tag : Option String) (tree : Tree) (p : Pen) : Option Pen :=
  match tree with
  | .null => some (writeScalar c tag "null" .plain p)
  | .bool b => some (writeScalar c tag (if b then "true" else "false") .plain p)
  | .num n => some (writeScalar c tag (n.text .yaml) .plain p)
  | .str s => some (writeScalar c tag s (preferredStyle s) p)
  | .seq [] => some (((p.tag tag).indicator ['['] true false).indicator [']'] false false)
  | .seq items =>
    let p := p.tag tag
    writeItems (if c.inMapping && ! p.indented then c.indent.getD 0 else c.inner) items p
  | .map [] => some (((p.tag tag).indicator ['\x7b'] true false).indicator ['\x7d'] false false)
  | .map entries => writeEntries c.inner entries (p.tag tag)
  | .tagged name value =>
    match tag with
    | none => write c (some name) value p
    | some _ => none

/-- Writes the items of a sequence. -/
def writeItems (indent : Nat) : List Tree → Pen → Option Pen
  | [], p => some p
  | item :: rest, p =>
    (write ⟨some indent, false, false⟩ none item ((p.toIndent indent).indicator ['-'] true true)).bind
      (writeItems indent rest)

/-- Writes an entry of a mapping. A key that cannot stand before its colon has a line of its own. -/
def writeEntry (indent : Nat) : Tree × Tree → Pen → Option Pen
  | (key, value), p =>
    let p := p.toIndent indent
    if key.isSimpleKey then
      (write ⟨some indent, true, true⟩ none key p).bind fun p =>
        write ⟨some indent, true, false⟩ none value (p.indicator [':'] false false)
    else
      (write ⟨some indent, true, false⟩ none key (p.indicator ['?'] true true)).bind fun p =>
        write ⟨some indent, true, false⟩ none value ((p.toIndent indent).indicator [':'] true true)

/-- Writes the entries of a mapping. -/
def writeEntries (indent : Nat) : List (Tree × Tree) → Pen → Option Pen
  | [], p => some p
  | entry :: rest, p => (writeEntry indent entry p).bind (writeEntries indent rest)

end

/-- The text of a tree that is a whole document. -/
def text? (tree : Tree) : Option String :=
  (write ⟨none, false, false⟩ none tree .start).map fun p =>
    String.ofList (p.toIndent 0).written.reverse

end Tree

end StackCompiler.Yaml
