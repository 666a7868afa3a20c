import StackCompiler.Number.Numeral
import StackCompiler.Yaml.Tag
import StackCompiler.Yaml.Tree

/-!
What plain scalars mean: null, a truth value, a number, or the text itself.
-/
namespace StackCompiler.Yaml

def isNullText (s : String) : Bool :=
  ["null", "Null", "NULL", "~"].contains s

def boolOfText? (s : String) : Option Bool :=
  if ["true", "True", "TRUE"].contains s then some true
  else if ["false", "False", "FALSE"].contains s then some false
  else none

/-! ### Integers -/

/-- The value of a digit in a base up to sixteen. -/
def digitIn? (base : Nat) (c : Char) : Option Nat :=
  let d :=
    if c.isDigit then some (c.toNat - '0'.toNat)
    else if 'a' ≤ c && c ≤ 'f' then some (c.toNat - 'a'.toNat + 10)
    else if 'A' ≤ c && c ≤ 'F' then some (c.toNat - 'A'.toNat + 10)
    else none
  d.filter (· < base)

/-- The number that digits name in a base; there is at least one digit. -/
def natOfDigits? (base : Nat) (cs : List Char) : Option Nat :=
  if cs.isEmpty then none
  else cs.foldlM (fun total c => (digitIn? base c).map (base * total + ·)) 0

/-- The base that the letter after a leading zero names. -/
def baseOf? (c : Char) : Option Nat :=
  if c == 'x' then some 16 else if c == 'o' then some 8 else if c == 'b' then some 2 else none

/-- A number without a sign, in decimal digits or after a letter for its base. -/
def unsigned? : List Char → Option Nat
  | '0' :: letter :: digits =>
    match baseOf? letter with
    | some base => natOfDigits? base digits
    | none => natOfDigits? 10 ('0' :: letter :: digits)
  | digits => natOfDigits? 10 digits

/-- Several digits of which the first is zero, perhaps after a sign. They name no number. -/
def isZeroLed (cs : List Char) : Bool :=
  let digits := if cs.head? == some '-' || cs.head? == some '+' then cs.tail else cs
  1 < digits.length && digits.head? == some '0' && digits.tail.all Char.isDigit

/-- The integer that a text names. -/
def intOfText? (cs : List Char) : Option Int :=
  if isZeroLed cs then none
  else
    match cs with
    | '-' :: rest => (unsigned? rest).map fun n => - (n : Int)
    | '+' :: rest => (unsigned? rest).map Int.ofNat
    | _ => (unsigned? cs).map Int.ofNat

/-- Integers that are no numbers of a document, though of twice as many bits: such a document is
    refused. -/
def isUnrepresentable (i : Int) : Bool :=
  ! Number.inRange i && -(twoPow 127 : Int) ≤ i && i < twoPow 128

/-! ### Floating-point numbers -/

def infinityWords : List String :=
  [".inf", ".Inf", ".INF"]

def nanWords : List String :=
  [".nan", ".NaN", ".NAN"]

/-- The number that a text names, if it is finite or spelled as one of the words. -/
def floatOfText? (s : String) : Option Binary64 :=
  let cs := s.toList
  let unsigned := if cs.head? == some '+' then cs.tail else cs
  if cs.head? == some '+' && (cs.tail.head? == some '+' || cs.tail.head? == some '-') then none
  else if infinityWords.contains (String.ofList unsigned) then some (.infinity false)
  else if infinityWords.any fun word => s == "-" ++ word then some (.infinity true)
  else if nanWords.contains s then some .notANumber
  else (Binary64.ofText? unsigned).filter (·.isFinite)

/-! ### Scalars -/

/-- What an integer means: nothing where it cannot be represented. -/
def treeOfInt? (i : Int) : Option Tree :=
  if Number.inRange i then some (.num (.int i)) else none

/-- What a plain scalar without a tag means. -/
def Tree.ofPlain? (s : String) : Option Tree :=
  let cs := s.toList
  if s.isEmpty || isNullText s then some .null
  else
    match boolOfText? s with
    | some b => some (.bool b)
    | none =>
      match (intOfText? cs).filter fun i => Number.inRange i || isUnrepresentable i with
      | some i => treeOfInt? i
      | none =>
        if isZeroLed cs then some (.str s)
        else
          match floatOfText? s with
          | some x => some (.num (.float x))
          | none => some (.str s)

/-- What a scalar with a tag of a core type means; nothing where its text is not of that type. -/
def Tree.ofCore? (tag : Tag) (s : String) : Option (Option Tree) :=
  if tag == .coreType "bool" then some ((boolOfText? s).map .bool)
  else if tag == .coreType "int" then some ((intOfText? s.toList).bind treeOfInt?)
  else if tag == .coreType "float" then some ((floatOfText? s).map fun x => .num (.float x))
  else if tag == .coreType "null" then some (if isNullText s then some .null else none)
  else none

end StackCompiler.Yaml
