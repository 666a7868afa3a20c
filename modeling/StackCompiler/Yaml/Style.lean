import StackCompiler.Yaml.Cursor
import StackCompiler.Yaml.Scalar

/-!
How a scalar is written. Plain style is used where the text would be read back as it
is, quotes where it would not, and a literal block for several lines.
-/
namespace StackCompiler.Yaml

inductive Style where
  | plain
  | single
  | double
  | literal
deriving DecidableEq

/-- Characters that stand for themselves. -/
def isPrintable (c : Char) : Bool :=
  let n := c.toNat
  n == 0xa || (0x20 ≤ n && n ≤ 0x7e) || (0xa0 ≤ n && n ≤ 0xd7ff)
    || (0xe000 ≤ n && n ≤ 0xfffd && n != 0xfeff) || 0x10000 ≤ n

/-- Whether white space, a line break or the end follows the first character. -/
def followedByBlank (cs : List Char) : Bool :=
  endsWord cs.tail.head?

/-- Whether the first character of a text keeps it from being plain. -/
def startsLikeSyntax (cs : List Char) : Bool :=
  "---".toList.isPrefixOf cs || "...".toList.isPrefixOf cs
    || cs.head?.any fun c =>
      "#,[]\x7b\x7d&*!|>'\"%@\x60".toList.contains c
        || ((c == '?' || c == ':' || c == '-') && followedByBlank cs)

/-- Whether a text has a colon before white space or a number sign after it, where `before` is the
    character before the text. -/
def holdsSyntax : (before : Char) → List Char → Bool
  | _, [] => false
  | before, c :: rest =>
    (c == ':' && endsWord rest.head?) || (c == '#' && endsWord (some before)) || holdsSyntax c rest

/-- Whether one of the characters that `first` accepts stands right before one that `second` does. -/
def holdsPair (first second : Char → Bool) : List Char → Bool
  | a :: b :: rest => (first a && second b) || holdsPair first second (b :: rest)
  | _ => false

/-- What a text allows. -/
structure Allowed where
  multiline : Bool
  plain : Bool
  single : Bool
  block : Bool

def isSpace (c : Char) : Bool :=
  c == ' '

def Allowed.of (cs : List Char) : Allowed :=
  let isEdge (c : Char) := isSpace c || isBreak c
  let multiline := cs.any isBreak
  let edged := cs.head?.any isEdge || cs.getLast?.any isEdge
  let breakSpace := holdsPair isBreak isSpace cs
  let spoiled := holdsPair isSpace isBreak cs || cs.any (! isPrintable ·)
  let indicated := startsLikeSyntax cs
    || match cs with
      | [] => false
      | c :: rest => holdsSyntax c rest
  { multiline := multiline,
    plain := ! edged && ! breakSpace && ! spoiled && ! multiline && ! indicated,
    single := ! breakSpace && ! spoiled,
    block := ! cs.isEmpty && ! cs.getLast?.any isSpace && ! spoiled }

/-- The style that suits a text best. One that would be read as something else is quoted. -/
def preferredStyle (s : String) : Style :=
  if s.toList.contains '\n' then .literal
  else if isZeroLed s.toList then .single
  else
    match Tree.ofPlain? s with
    | some (.str _) => .plain
    | _ => .single

/-- The style in which a text is written. As a key on one line it cannot be a block. -/
def Style.select (preferred : Style) (allowed : Allowed) (isEmpty simpleKey : Bool) : Style :=
  let style := if simpleKey && allowed.multiline then .double else preferred
  let style :=
    if style == .plain && (! allowed.plain || (isEmpty && simpleKey)) then .single else style
  let style := if style == .single && ! allowed.single then .double else style
  if style == .literal && (! allowed.block || simpleKey) then .double else style

/-! ### Escapes -/

/-- Characters that have a letter of their own after a backslash. -/
def writtenEscapes : List (Char × Char) :=
  [('\x00', '0'), ('\x07', 'a'), ('\x08', 'b'), ('\t', 't'), ('\n', 'n'), ('\x0b', 'v'), ('\x0c', 'f'),
   ('\r', 'r'), ('\x1b', 'e'), ('\x22', '\x22'), ('\x5c', '\x5c'), ('\x85', 'N'), ('\u2028', 'L'),
   ('\u2029', 'P')]

/-- A number in capital hexadecimal digits, at least `width` of them. -/
def hexText (width n : Nat) : List Char :=
  let digits := (Nat.toDigits 16 n).map Char.toUpper
  List.replicate (width - digits.length) '0' ++ digits

/-- A character between double quotes. -/
def doubleQuotedChar (c : Char) : List Char :=
  if isPrintable c && ! isBreak c && c != '\x22' && c != '\x5c' then [c]
  else
    '\x5c' :: match writtenEscapes.lookup c with
      | some letter => [letter]
      | none =>
        if c.toNat ≤ 0xff then 'x' :: hexText 2 c.toNat
        else if c.toNat ≤ 0xffff then 'u' :: hexText 4 c.toNat
        else 'U' :: hexText 8 c.toNat

def singleQuotedChar (c : Char) : List Char :=
  if c == '\x27' then ['\x27', '\x27'] else [c]

/-- What stands after the indicator of a literal block: how far it is indented, where the text does
    not show it, and what becomes of the line breaks at its end. -/
def literalHints (cs : List Char) : List Char :=
  let indentation := if cs.head?.any fun c => isSpace c || isBreak c then ['2'] else []
  let chomping :=
    match cs.reverse with
    | [] => ['-']
    | last :: before =>
      if ! isBreak last then ['-']
      else if before.isEmpty || before.head?.any isBreak then ['+']
      else []
  indentation ++ chomping

end StackCompiler.Yaml
