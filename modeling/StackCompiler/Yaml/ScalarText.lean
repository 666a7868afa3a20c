import StackCompiler.Yaml.Cursor

/-!
The text of scalars. Line breaks inside a scalar are folded: one becomes a space, and
of several the first is dropped. Only literal blocks keep their lines.
-/
namespace StackCompiler.Yaml

/-- White space between two parts of a scalar. -/
structure Gap where
  /-- White space on the line of the part before. -/
  spaces : List Char := []
  /-- Whether there is a line break. -/
  broken : Bool := false
  /-- The first line break, unless it is escaped. -/
  first : Option Char := none
  /-- The line breaks after the first. -/
  more : List Char := []

namespace Gap

/-- What a gap becomes in the scalar. -/
def folded (g : Gap) : List Char :=
  if g.broken then
    match g.first with
    | some '\n' => if g.more.isEmpty then [' '] else g.more
    | first => first.toList ++ g.more
  else g.spaces

/-- Reads a gap. In a line before its text, no tab may stand to the left of `margin`. -/
def read (margin : Nat) : (fuel : Nat) → Cursor → Gap → Option (Gap × Cursor)
  | 0, c, g => some (g, c)
  | fuel + 1, c, g =>
    match c.head? with
    | none => some (g, c)
    | some ch =>
      if isSpaceOrTab ch then
        if g.broken then
          if ch == '\t' && c.column < margin then none else read margin fuel (c.advance 1) g
        else read margin fuel (c.advance 1) { g with spaces := g.spaces ++ [ch] }
      else if isBreak ch then
        let mark := Cursor.breakChar ch
        if g.broken then read margin fuel c.nextLine { g with more := g.more ++ [mark] }
        else read margin fuel c.nextLine { broken := true, first := some mark }
      else some (g, c)

end Gap

/-! ### Plain scalars -/

def isFlowIndicator (c : Char) : Bool :=
  c == ',' || c == '[' || c == ']' || c == '\x7b' || c == '\x7d'

/-- The characters up to white space or to what ends a plain scalar. Between brackets, a colon must
    not stand right before an indicator. -/
def plainRun (inFlow : Bool) : List Char → Option (List Char)
  | [] => some []
  | c :: rest =>
    if isSpaceOrTab c || isBreak c then some []
    else if inFlow && c == ':' && rest.head?.any (fun n => isFlowIndicator n || n == '?') then none
    else if c == ':' && endsWord rest.head? then some []
    else if inFlow && isFlowIndicator c then some []
    else (plainRun inFlow rest).map (c :: ·)

/-- A plain scalar, of which `read` has been read, last character first, and `gap` follows: its
    text, the place after it, and whether a line break is the last that was read. Outside brackets
    its lines must not stand to the left of `margin`. -/
def plainScalar (inFlow : Bool) (margin : Nat) :
    (fuel : Nat) → Cursor → (read : List Char) → Gap → Option (List Char × Cursor × Bool)
  | 0, c, read, gap => some (read.reverse, c, gap.broken)
  | fuel + 1, c, read, gap =>
    if c.atDocumentMark || c.head? == some '#' then some (read.reverse, c, gap.broken)
    else do
      let run ← plainRun inFlow c.rest
      let c := c.advance run.length
      let (read, gap) :=
        if run.isEmpty then (read, gap) else (run.reverseAux (gap.folded.reverseAux read), {})
      if c.head?.any fun n => isSpaceOrTab n || isBreak n then
        let (gap, c) ← Gap.read margin fuel c gap
        if ! inFlow && c.column < margin then some (read.reverse, c, gap.broken)
        else plainScalar inFlow margin fuel c read gap
      else some (read.reverse, c, gap.broken)

/-! ### Quoted scalars -/

/-- What a letter after a backslash stands for. -/
def escapes : List (Char × Char) :=
  [('0', '\x00'), ('a', '\x07'), ('b', '\x08'), ('t', '\t'), ('\t', '\t'), ('n', '\n'),
   ('v', '\x0b'), ('f', '\x0c'), ('r', '\r'), ('e', '\x1b'), (' ', ' '), ('\x22', '\x22'), ('/', '/'),
   ('\x5c', '\x5c'), ('N', '\x85'), ('_', '\xa0'), ('L', '\u2028'), ('P', '\u2029')]

/-- How many digits follow a letter that opens a numeric escape. -/
def escapeWidths : List (Char × Nat) :=
  [('x', 2), ('u', 4), ('U', 8)]

def hexDigit? (c : Char) : Option Nat :=
  if c.isDigit then some (c.toNat - '0'.toNat)
  else if 'a' ≤ c && c ≤ 'f' then some (c.toNat - 'a'.toNat + 10)
  else if 'A' ≤ c && c ≤ 'F' then some (c.toNat - 'A'.toNat + 10)
  else none

def hexNumber? (cs : List Char) : Option Nat :=
  cs.foldlM (fun total c => (hexDigit? c).map (16 * total + ·)) 0

/-- A code point that is a character. -/
def charOfCode? (code : Nat) : Option Char :=
  if (0xd800 ≤ code && code ≤ 0xdfff) || 0x10ffff < code then none else some (Char.ofNat code)

/-- The character that the text after a backslash stands for, and how many characters say so. -/
def unescape? (cs : List Char) : Option (Char × Nat) := do
  let letter ← cs.head?
  match escapes.lookup letter with
  | some c => return (c, 1)
  | none =>
    let width ← escapeWidths.lookup letter
    let digits := (cs.drop 1).take width
    if digits.length < width then none
    else return (← charOfCode? (← hexNumber? digits), width + 1)

/-- The text up to white space, to the closing quote or to an escaped line break, and how many
    characters it takes. -/
def quotedRun (quote : Char) : (fuel : Nat) → List Char → Option (List Char × Nat)
  | 0, _ => some ([], 0)
  | fuel + 1, cs =>
    match cs with
    | [] => some ([], 0)
    | c :: rest =>
      if isSpaceOrTab c || isBreak c then some ([], 0)
      else if c == quote then
        if quote == '\x27' && rest.head? == some quote then
          (quotedRun quote fuel rest.tail).map fun (text, n) => (quote :: text, n + 2)
        else some ([], 0)
      else if c == '\x5c' && quote == '\x22' then
        if rest.head?.any isBreak then some ([], 0)
        else do
          let (meant, used) ← unescape? rest
          let (text, n) ← quotedRun quote fuel (rest.drop used)
          return (meant :: text, n + used + 1)
      else (quotedRun quote fuel rest).map fun (text, n) => (c :: text, n + 1)

/-- A quoted scalar whose opening quote has been passed, of which `read` has been read, last
    character first. -/
def quotedScalar (quote : Char) :
    (fuel : Nat) → Cursor → (read : List Char) → Option (List Char × Cursor)
  | 0, _, _ => none
  | fuel + 1, c, read =>
    if c.atDocumentMark || c.head?.isNone then none
    else do
      let (run, used) ← quotedRun quote (fuel + 1) c.rest
      let c := c.advance used
      let read := run.reverseAux read
      if c.head? == some quote then some (read.reverse, c.advance 1)
      else if c.head? == some '\x5c' then
        let c := (c.advance 1).nextLine
        let (gap, c) ← Gap.read 0 fuel c { broken := true }
        quotedScalar quote fuel c (gap.folded.reverseAux read)
      else
        let (gap, c) ← Gap.read 0 fuel c {}
        quotedScalar quote fuel c (gap.folded.reverseAux read)

/-! ### Block scalars -/

/-- What becomes of the line breaks at the end of a block. -/
inductive Chomping where
  | strip
  | clip
  | keep
deriving DecidableEq

/-- What stands after the indicator of a block. -/
structure BlockHeader where
  chomping : Chomping := .clip
  /-- How far the text is indented, if that is said. -/
  indentation : Option Nat := none

def chompingOf? (c : Char) : Option Chomping :=
  if c == '+' then some .keep else if c == '-' then some .strip else none

/-- The header of a block and how many characters it takes. An indentation of zero is refused. -/
def blockHeader? (cs : List Char) : Option (BlockHeader × Nat) :=
  let digit? (c : Option Char) := c.filter Char.isDigit
  let width (c : Char) := c.toNat - '0'.toNat
  match cs.head?.bind chompingOf? with
  | some chomping =>
    match digit? cs.tail.head? with
    | some '0' => none
    | some d => some (⟨chomping, some (width d)⟩, 2)
    | none => some (⟨chomping, none⟩, 1)
  | none =>
    match digit? cs.head? with
    | some '0' => none
    | some d =>
      match cs.tail.head?.bind chompingOf? with
      | some chomping => some (⟨chomping, some (width d)⟩, 2)
      | none => some ({ indentation := some (width d) }, 1)
    | none => some ({}, 0)

/-- Reads the line breaks before a line of a block: the breaks, the widest indentation and the place
    of the line. While `margin` is not known, every space is indentation. -/
def blockBreaks (margin : Option Nat) :
    (fuel : Nat) → Cursor → (breaks : List Char) → (widest : Nat) → Option (List Char × Nat × Cursor)
  | 0, c, breaks, widest => some (breaks, widest, c)
  | fuel + 1, c, breaks, widest =>
    let spaces := (c.rest.takeWhile (· == ' ')).length
    let c := c.advance ((margin.map fun m => min spaces (m - c.column)).getD spaces)
    let widest := max widest c.column
    if margin.all (c.column < ·) && c.head? == some '\t' then none
    else
      match c.head? with
      | some ch =>
        if isBreak ch then
          blockBreaks margin fuel c.nextLine (breaks ++ [Cursor.breakChar ch]) widest
        else some (breaks, widest, c)
      | none => some (breaks, widest, c)

/-- A block that is being read. -/
structure BlockText where
  /-- The text up to the end of the last line, last character first. -/
  read : List Char := []
  /-- The line break after the last line. -/
  first : Option Char := none
  /-- The line breaks after that. -/
  more : List Char := []
  /-- Whether the last line starts with white space. -/
  blankStart : Bool := false

/-- What stands between the last line and the next, which starts with white space or not. -/
def BlockText.joint (b : BlockText) (literal blankStart : Bool) : List Char :=
  if ! literal && b.first == some '\n' && ! b.blankStart && ! blankStart then
    if b.more.isEmpty then [' '] else b.more
  else b.first.toList ++ b.more

/-- Reads the lines of a block. -/
def blockLines (literal : Bool) (margin : Nat) :
    (fuel : Nat) → Cursor → BlockText → Option (BlockText × Cursor)
  | 0, c, b => some (b, c)
  | fuel + 1, c, b =>
    if c.column == margin && c.head?.isSome then do
      let blankStart := c.head?.any isSpaceOrTab
      let joint := b.joint literal blankStart
      let (line, c) := c.takeWhile (! isBreak ·)
      let (first, c) :=
        match c.head? with
        | some ch => (some (Cursor.breakChar ch), c.nextLine)
        | none => (none, c)
      let (more, _, c) ← blockBreaks (some margin) (fuel + 1) c [] 0
      let read := line.reverseAux (joint.reverseAux b.read)
      blockLines literal margin fuel c ⟨read, first, more, blankStart⟩
    else some (b, c)

/-- A block whose indicator has been passed, inside a block that is indented by `outer`. There are
    at most `fuel` characters left. -/
def blockScalar (literal : Bool) (outer : Int) (fuel : Nat) (c : Cursor) :
    Option (List Char × Cursor) := do
  let (header, used) ← blockHeader? c.rest
  let c := (c.advance used).skipWhile isSpaceOrTab
  let c := if c.head? == some '#' then c.skipWhile (! isBreak ·) else c
  if ! endsLine c.head? then none
  else
    let c := if c.head?.isSome then c.nextLine else c
    let stated := header.indentation.map fun n => if 0 ≤ outer then outer.toNat + n else n
    let (breaks, widest, c) ← blockBreaks stated (fuel + 1) c [] 0
    let margin := stated.getD (max widest (max (outer + 1).toNat 1))
    let (b, c) ← blockLines literal margin (fuel + 1) c { more := breaks }
    let tail :=
      match header.chomping with
      | .strip => []
      | .clip => b.first.toList
      | .keep => b.first.toList ++ b.more
    return (b.read.reverse ++ tail, c)

end StackCompiler.Yaml
