import StackCompiler.Number.Power
import StackCompiler.Text.Lines

/-!
Where a node stands inside a value: names of members and positions in lists, from
the root down. In text, names are joined by dots and positions stand in brackets,
as in `Policies[0].Statement[1].Resource`.
-/
namespace StackCompiler

inductive Segment where
  | key (name : String)
  | index (position : Nat)
deriving DecidableEq

def Segment.isKey : Segment → Bool
  | .key _ => true
  | .index _ => false

/-- A segment at the start of a text. -/
def Segment.text : Segment → String
  | .key name => name
  | .index position => "[" ++ toString position ++ "]"

/-- A segment after another: a dot divides a name from what is before it. -/
def Segment.continued : Segment → String
  | .key name => "." ++ name
  | .index position => "[" ++ toString position ++ "]"

structure FieldPath where
  segments : List Segment
deriving DecidableEq

namespace FieldPath

/-- The value itself. -/
def root : FieldPath := ⟨[]⟩

def key (path : FieldPath) (name : String) : FieldPath :=
  ⟨path.segments ++ [.key name]⟩

def index (path : FieldPath) (position : Nat) : FieldPath :=
  ⟨path.segments ++ [.index position]⟩

def join (path other : FieldPath) : FieldPath :=
  ⟨path.segments ++ other.segments⟩

def isRoot (path : FieldPath) : Bool :=
  path.segments.isEmpty

/-- The last name on the path; positions after it do not count. -/
def lastKey? (path : FieldPath) : Option String :=
  path.segments.reverse.findSome? fun
    | .key name => some name
    | .index _ => none

/-- The path without its positions. -/
def stripIndices (path : FieldPath) : FieldPath :=
  ⟨path.segments.filter Segment.isKey⟩

/-- Whether `tail`, which must not be empty, is how the path ends. Whole segments are compared. -/
def endsWith (path tail : FieldPath) : Bool :=
  ! tail.isRoot && tail.segments.isSuffixOf path.segments

/-! ### Text -/

def text (path : FieldPath) : String :=
  match path.segments with
  | [] => ""
  | first :: rest => first.text ++ String.join (rest.map Segment.continued)

/-- The position that a text between brackets names: digits, perhaps after a plus sign, for a
    number below `2 ^ 64`. -/
def position? (cs : List Char) : Option Nat :=
  let digits := if cs.head? == some '+' then cs.tail else cs
  if digits.isEmpty || ! digits.all Char.isDigit then none
  else
    let n := digits.foldl (fun total d => 10 * total + (d.toNat - '0'.toNat)) 0
    if n < twoPow 64 then some n else none

/-- The positions that texts after an opening bracket name. Reading stops after a closing bracket
    that another text follows. -/
def positions? : List (List Char) → Option (List Nat)
  | [] => some []
  | piece :: pieces => do
    let (digits, after) ← Text.splitFirst? (· == ']') piece
    let n ← position? digits
    if after.isEmpty then return n :: (← positions? pieces) else return [n]

/-- The segments of a text between dots. One whose brackets hold no positions is a name as a
    whole. -/
def parsePart (part : List Char) : List Segment :=
  match Text.splitBy (· == '[') part with
  | [] => []
  | name :: pieces =>
    match positions? pieces with
    | some ns =>
      (if name.isEmpty then [] else [.key (String.ofList name)]) ++ ns.map Segment.index
    | none => [.key (String.ofList part)]

def parse (text : String) : FieldPath :=
  ⟨((Text.splitBy (· == '.') text.toList).filter (! ·.isEmpty)).flatMap parsePart⟩

end FieldPath

end StackCompiler
