import StackCompiler.Toml.Scalar
import StackCompiler.Toml.Table

/-!
Reading TOML text. A text that is no document gives nothing.
-/
namespace StackCompiler.Toml

/-! ### Between values -/

def isBlank (c : Char) : Bool :=
  c == ' ' || c == '\t'

/-- Control characters that may stand nowhere. -/
def isRefused (c : Char) : Bool :=
  (c.toNat < 0x20 && c != '\t') || c.toNat == 0x7f

def skipBlank (cs : List Char) : List Char :=
  cs.dropWhile isBlank

/-- The text after a line break at its start. -/
def afterBreak? : List Char → Option (List Char)
  | '\n' :: rest => some rest
  | '\r' :: '\n' :: rest => some rest
  | _ => none

/-- The text after a comment, up to the end of its line. -/
def skipComment : List Char → Option (List Char)
  | '#' :: rest =>
    let after := rest.dropWhile (! isRefused ·)
    if after.isEmpty || (afterBreak? after).isSome then some after else none
  | cs => some cs

/-- The next line, where nothing but a comment is left of this one. -/
def nextLine? (cs : List Char) : Option (List Char) := do
  let cs ← skipComment (skipBlank cs)
  if cs.isEmpty then some [] else afterBreak? cs

/-- The text after blanks, comments and line breaks, of which there are fewer than `fuel`. -/
def skipLines : (fuel : Nat) → List Char → Option (List Char)
  | 0, cs => some cs
  | fuel + 1, cs => do
    let cs ← skipComment (skipBlank cs)
    match afterBreak? cs with
    | some rest => skipLines fuel rest
    | none => some cs

/-! ### Texts -/

/-- The characters that a backslash and one letter stand for. -/
def letterEscapes : List (Char × Char) :=
  [('b', '\x08'), ('e', '\x1b'), ('t', '\t'), ('n', '\n'), ('f', '\x0c'), ('r', '\r'),
   ('\x22', '\x22'), ('\x5c', '\x5c')]

/-- How many digits follow a letter that starts the code of a character. -/
def codeWidth (letter : Char) : Nat :=
  if letter == 'x' then 2 else if letter == 'u' then 4 else if letter == 'U' then 8 else 0

/-- The character with a code that has this many digits. -/
def codePoint? (digits : List Char) : Option Char := do
  let code ← Json.hexValue? digits
  if code.isValidChar then some (Char.ofNat code) else none

/-- The character that the text after a backslash stands for, and how many characters say so. -/
def escape? : List Char → Option (Char × Nat)
  | [] => none
  | c :: rest =>
    match letterEscapes.lookup c with
    | some meant => some (meant, 1)
    | none =>
      let width := codeWidth c
      if width == 0 || rest.length < width then none
      else (codePoint? (rest.take width)).map (·, width + 1)

/-- A text on one line up to the quote that closes it; `passed` characters belong to an escape that
    has been read. Between single quotes there are no escapes. -/
def quoted (quote : Char) : (passed : Nat) → List Char → Option (List Char × List Char)
  | _, [] => none
  | passed + 1, _ :: rest => quoted quote passed rest
  | 0, c :: rest =>
    if c == quote then some ([], rest)
    else if isRefused c then none
    else if c == '\x5c' && quote == '\x22' then
      match escape? rest with
      | some (meant, width) => (quoted quote width rest).map fun (s, after) => (meant :: s, after)
      | none => none
    else (quoted quote 0 rest).map fun (s, after) => (c :: s, after)

/-- How a text over several lines goes on. -/
inductive Skip where
  /-- So many characters belong to what has been read. -/
  | count (n : Nat)
  /-- White space goes for nothing after a backslash at the end of a line. -/
  | blanks

/-- A text over several lines up to the three quotes that close it. Up to two more quotes before
    these belong to the text. -/
def quotedLines (quote : Char) : Skip → List Char → Option (List Char × List Char)
  | _, [] => none
  | .count (n + 1), _ :: rest => quotedLines quote (.count n) rest
  | skip, c :: rest =>
    let isBlanks := match skip with
      | .blanks => true
      | .count _ => false
    if isBlanks && (isBlank c || c == '\n' || (c == '\r' && rest.head? == some '\n')) then
      quotedLines quote .blanks rest
    else if c == quote then
      let more := (rest.takeWhile (· == quote)).length
      if more < 2 then (quotedLines quote (.count 0) rest).map fun (s, after) => (c :: s, after)
      else some (List.replicate (min more 4 - 2) quote, rest.drop (min more 4))
    else if c == '\x5c' && quote == '\x22' then
      if (afterBreak? (skipBlank rest)).isSome then quotedLines quote .blanks rest
      else
        match escape? rest with
        | some (meant, width) =>
          (quotedLines quote (.count width) rest).map fun (s, after) => (meant :: s, after)
        | none => none
    else if isRefused c && c != '\n' && ! (c == '\r' && rest.head? == some '\n') then none
    else (quotedLines quote (.count 0) rest).map fun (s, after) => (c :: s, after)

/-- A text after its first quote. -/
def textFrom (quote : Char) (cs : List Char) : Option (List Char × List Char) :=
  match cs with
  | a :: b :: rest =>
    if a == quote && b == quote then
      quotedLines quote (.count 0) ((afterBreak? rest).getD rest)
    else quoted quote 0 cs
  | _ => quoted quote 0 cs

/-! ### Keys -/

def isBareChar (c : Char) : Bool :=
  c.isAlphanum || c == '_' || c == '-'

/-- One part of a key. -/
def keyPart : List Char → Option (String × List Char)
  | [] => none
  | c :: rest =>
    if c == '\x22' || c == '\x27' then (quoted c 0 rest).map fun (s, after) => (String.ofList s, after)
    else
      let bare := (c :: rest).takeWhile isBareChar
      if bare.isEmpty then none else some (String.ofList bare, (c :: rest).dropWhile isBareChar)

/-- A key of at most `fuel` parts with dots between them. -/
def dottedKey : (fuel : Nat) → List Char → Option (List String × List Char)
  | 0, _ => none
  | fuel + 1, cs => do
    let (part, cs) ← keyPart (skipBlank cs)
    match skipBlank cs with
    | '.' :: rest =>
      let (parts, after) ← dottedKey fuel rest
      some (part :: parts, after)
    | after => some ([part], after)

/-! ### Values -/

/-- How many lists and tables between braces may stand inside one another. -/
def depthLimit : Nat := 80

mutual

/-- A value in which lists and tables between braces nest at most `depth` deep. -/
def valueFrom : (fuel depth : Nat) → List Char → Option (Toml × List Char)
  | 0, _, _ => none
  | _ + 1, _, [] => none
  | fuel + 1, depth, c :: rest =>
    if c == '\x22' || c == '\x27' then
      (textFrom c rest).map fun (s, after) => (.text (String.ofList s), after)
    else if c == '[' then
      match depth with
      | 0 => none
      | depth + 1 => (listFrom fuel depth rest).map fun (items, after) => (.list items, after)
    else if c == '\x7b' then
      match depth with
      | 0 => none
      | depth + 1 =>
        (inlineFrom fuel depth rest []).map fun (entries, after) => (.table .inline entries, after)
    else (afterScalar? (c :: rest)).map (.scalar, ·)

/-- The items of a list up to its bracket. -/
def listFrom : (fuel depth : Nat) → List Char → Option (List Toml × List Char)
  | 0, _, _ => none
  | fuel + 1, depth, cs => do
    match ← skipLines cs.length cs with
    | ']' :: after => some ([], after)
    | cs =>
      let (item, cs) ← valueFrom fuel depth cs
      match ← skipLines cs.length cs with
      | ',' :: cs =>
        let (items, after) ← listFrom fuel depth cs
        some (item :: items, after)
      | ']' :: after => some ([item], after)
      | _ => none

/-- The entries of a table between braces, after those of `entries`. -/
def inlineFrom : (fuel depth : Nat) → List Char → Entries → Option (Entries × List Char)
  | 0, _, _, _ => none
  | fuel + 1, depth, cs, entries => do
    match ← skipLines cs.length cs with
    | '\x7d' :: after => some (entries, after)
    | cs =>
      let (keys, cs) ← dottedKey cs.length cs
      let cs ← after? '=' (← skipLines cs.length cs)
      let (value, cs) ← valueFrom fuel depth (← skipLines cs.length cs)
      let entries ← assign value keys entries
      match ← skipLines cs.length cs with
      | ',' :: cs => inlineFrom fuel depth cs entries
      | '\x7d' :: after => some (entries, after)
      | _ => none

end

/-! ### Documents -/

/-- A document that is being read: the keys of the header that is open, and all entries. -/
structure Draft where
  openKeys : List String
  entries : Entries

/-- Reads one line: a header, an entry or nothing. -/
def statement (draft : Draft) (cs : List Char) : Option (Draft × List Char) :=
  match skipBlank cs with
  | '[' :: '[' :: rest => do
    let (keys, cs) ← dottedKey rest.length rest
    match cs with
    | ']' :: ']' :: after =>
      let entries ← openNext keys draft.entries
      some (⟨keys, entries⟩, after)
    | _ => none
  | '[' :: rest => do
    let (keys, cs) ← dottedKey rest.length rest
    match cs with
    | ']' :: after =>
      let entries ← openTable keys draft.entries
      some (⟨keys, entries⟩, after)
    | _ => none
  | cs =>
    if cs.isEmpty || cs.head? == some '#' || (afterBreak? cs).isSome then some (draft, cs)
    else do
      let (keys, cs) ← dottedKey cs.length cs
      match cs with
      | '=' :: cs =>
        let cs := skipBlank cs
        let (value, after) ← valueFrom (cs.length + 1) depthLimit cs
        let entries ← changeAt (assign value keys) draft.openKeys draft.entries
        some ({ draft with entries := entries }, after)
      | _ => none

/-- Reads at most `fuel` lines. -/
def statements : (fuel : Nat) → Draft → List Char → Option Entries
  | 0, draft, _ => some draft.entries
  | fuel + 1, draft, cs => do
    let (draft, cs) ← statement draft cs
    let rest ← nextLine? cs
    if rest.isEmpty then some draft.entries else statements fuel draft rest

/-- The entries of a document. A mark of the byte order at its start goes for nothing. -/
def parse? (text : String) : Option Entries :=
  let cs := if text.toList.head? == some '\ufeff' then text.toList.tail else text.toList
  statements (cs.length + 1) ⟨[], []⟩ cs

end StackCompiler.Toml
