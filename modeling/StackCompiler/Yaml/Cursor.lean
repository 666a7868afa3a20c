/-!
A place in a YAML text, and the classes of characters that structure it. Where the
text ends, there is no next character.
-/
namespace StackCompiler.Yaml

/-- Characters that may stand in a document; all others make it invalid. -/
def isAllowed (c : Char) : Bool :=
  let n := c.toNat
  n == 0x9 || n == 0xa || n == 0xd || (0x20 ≤ n && n ≤ 0x7e) || n == 0x85
    || (0xa0 ≤ n && n ≤ 0xd7ff) || (0xe000 ≤ n && n ≤ 0xfffd) || 0x10000 ≤ n

/-- The mark that may open a text and says nothing. -/
def byteOrderMark : Char := '\ufeff'

def isSpaceOrTab (c : Char) : Bool :=
  c == ' ' || c == '\t'

def isBreak (c : Char) : Bool :=
  c == '\r' || c == '\n' || c == '\x85' || c == '\u2028' || c == '\u2029'

/-- Letters, digits, underscore and hyphen: what names are made of. -/
def isWordChar (c : Char) : Bool :=
  c.isAlphanum || c == '_' || c == '-'

/-- White space, a line break or the end of the text. -/
def endsWord (c : Option Char) : Bool :=
  c.all fun c => isSpaceOrTab c || isBreak c

/-- A line break or the end of the text. -/
def endsLine (c : Option Char) : Bool :=
  c.all isBreak

structure Cursor where
  rest : List Char
  /-- How many characters have been passed. -/
  index : Nat
  line : Nat
  column : Nat

namespace Cursor

def head? (c : Cursor) : Option Char :=
  c.rest.head?

def second? (c : Cursor) : Option Char :=
  c.rest.tail.head?

/-- Passes characters that are no line breaks. -/
def advance (c : Cursor) (count : Nat) : Cursor :=
  { c with rest := c.rest.drop count, index := c.index + count, column := c.column + count }

/-- The characters up to the first that `p` refuses, and the place there. None of them is a line
    break. -/
def takeWhile (c : Cursor) (p : Char → Bool) : List Char × Cursor :=
  let found := c.rest.takeWhile p
  (found, c.advance found.length)

def skipWhile (c : Cursor) (p : Char → Bool) : Cursor :=
  (c.takeWhile p).2

/-- Passes a line break, which may be two characters. -/
def nextLine (c : Cursor) : Cursor :=
  let count :=
    match c.rest with
    | '\r' :: '\n' :: _ => 2
    | [] => 0
    | _ => 1
  { rest := c.rest.drop count, index := c.index + count, line := c.line + 1, column := 0 }

/-- What a line break counts as: two of them are kept, and all others are line feeds. -/
def breakChar (c : Char) : Char :=
  if c == '\u2028' || c == '\u2029' then c else '\n'

/-- Whether a line consists of, or starts with, the mark of a document's start or end. -/
def atDocumentMark (c : Cursor) : Bool :=
  c.column == 0
    && match c.rest with
      | '-' :: '-' :: '-' :: rest => endsWord rest.head?
      | '.' :: '.' :: '.' :: rest => endsWord rest.head?
      | _ => false

end Cursor

end StackCompiler.Yaml
