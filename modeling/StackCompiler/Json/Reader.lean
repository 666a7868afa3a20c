import StackCompiler.Json.Basic
import StackCompiler.Json.Cursor
import StackCompiler.Text.Lines

/-!
Reading JSON text. `Reader.value` reads a document, and `Reader.skip` moves over
one without keeping it: what is skipped may nest without limit, hold numbers that
are out of range and halves of surrogate pairs.
-/
namespace StackCompiler.Json

/-! ### Strings -/

/-- The value of four hexadecimal digits. -/
def hexValue? (digits : List Char) : Option Nat :=
  digits.foldl (fun total c => do
    let total ← total
    let digit ←
      if c.isDigit then some (c.toNat - '0'.toNat)
      else if 'a' ≤ c && c ≤ 'f' then some (c.toNat - 'a'.toNat + 10)
      else if 'A' ≤ c && c ≤ 'F' then some (c.toNat - 'A'.toNat + 10)
      else none
    return 16 * total + digit) (some 0)

/-- The code that four hexadecimal digits name, and the place after them. The four are bytes:
    they may end inside a character, and then they are no digits. -/
def hexEscape (cs : List Char) (place : Place) : Except Fault (Nat × Place) :=
  let four := cs.take 4
  if Text.byteCount four < 4 then
    throw ⟨.endInString, cs.foldl Place.after place⟩
  else
    let after := place.afterBytes 4 cs
    match hexValue? four with
    | some code => pure (code, after)
    | none => throw ⟨.badEscape, after⟩

/-- The characters that a backslash and one letter stand for. -/
def shortEscapes : List (Char × Char) :=
  [('\x22', '\x22'), ('\x5c', '\x5c'), ('/', '/'), ('b', '\x08'), ('f', '\x0c'), ('n', '\n'),
   ('r', '\r'), ('t', '\t')]

/-- Reads `expected` at the start of a text, as the rest of a surrogate pair wants it. -/
def pairStep (expected : Char) (cs : List Char) (place : Place) : Except Fault Place :=
  match cs with
  | [] => throw ⟨.endInString, place⟩
  | c :: _ => if c = expected then pure (place.after c) else throw ⟨.unfinishedHexEscape, place.past c 1⟩

/-- The character that the text after a backslash stands for, how many characters say so, and
    the place after them. Outside `strict` reading, half a surrogate pair passes. -/
def escape (strict : Bool) (cs : List Char) (place : Place) : Except Fault (Char × Nat × Place) :=
  match cs with
  | [] => throw ⟨.endInString, place⟩
  | c :: rest =>
    match shortEscapes.lookup c with
    | some meant => pure (meant, 1, place.after c)
    | none =>
      if c != 'u' then throw ⟨.badEscape, place.past c 1⟩
      else do
        let (code, place) ← hexEscape rest (place.after c)
        if ! strict then pure (Char.ofNat 0xfffd, 5, place)
        else if 0xdc00 ≤ code && code ≤ 0xdfff then throw ⟨.loneSurrogate, place⟩
        else if code < 0xd800 || 0xdbff < code then pure (Char.ofNat code, 5, place)
        else
          let place ← pairStep '\x5c' (rest.drop 4) place
          let place ← pairStep 'u' (rest.drop 5) place
          let (low, place) ← hexEscape (rest.drop 6) place
          if low < 0xdc00 || 0xdfff < low then throw ⟨.loneSurrogate, place⟩
          else pure (Char.ofNat ((code - 0xd800) * 0x400 + (low - 0xdc00) + 0x10000), 11, place)

/-- The text up to the closing quote, the text after it and the place there. -/
def stringTail (strict : Bool) (cs : List Char) (place : Place) (read : List Char) :
    Except Fault (String × List Char × Place) :=
  match cs with
  | [] => throw ⟨.endInString, place⟩
  | c :: rest =>
    if c = '\x22' then pure (String.ofList read.reverse, rest, place.after c)
    else if c = '\x5c' then
      match escape strict rest (place.after c) with
      | .error fault => throw fault
      | .ok (meant, used, place) => stringTail strict (rest.drop used) place (meant :: read)
    else if c < ' ' then throw ⟨.controlCharacter, place.past c 1⟩
    else stringTail strict rest (place.after c) (c :: read)
termination_by cs.length
decreasing_by
  · simp only [List.length_cons, List.length_drop]
    omega
  · simp only [List.length_cons, Nat.lt_add_one]

namespace Reader

/-- A string whose opening quote is next. -/
def quotedText (strict : Bool) : Reader String := do
  advance
  let cursor ← get
  let (text, rest, place) ← stringTail strict cursor.rest cursor.place []
  set { cursor with rest := rest, place := place }
  return text

/-! ### Numbers -/

/-- The digits that are next. -/
def digits : Reader (List Char) := do
  let cursor ← get
  let found := cursor.rest.takeWhile Char.isDigit
  set { cursor with
    rest := cursor.rest.drop found.length,
    place := { cursor.place with column := cursor.place.column + found.length } }
  return found

/-- The number that decimal digits name. -/
def decimalValue (ds : List Char) : Nat :=
  ds.foldl (fun total d => 10 * total + (d.toNat - '0'.toNat)) 0

/-- Digits before the point: a zero stands alone. -/
def wholeDigits (atEnd : Cause) : Reader (List Char) := do
  match ← peek with
  | none => failHere atEnd
  | some '0' =>
    advance
    match ← peek with
    | some c => if c.isDigit then failPast .badNumber else return ['0']
    | none => return ['0']
  | some c => if c.isDigit then digits else failPast .badNumber

/-- Digits after the point, which is next; there is at least one. -/
def fractionDigits (atEnd : Cause) : Reader (List Char) := do
  advance
  let found ← digits
  if found.isEmpty then
    match ← peek with
    | none => failPast atEnd
    | some _ => failPast .badNumber
  else return found

/-- An exponent beyond this is no number of the reader's. -/
def exponentLimit : Nat := twoPow 31 - 1

/-- The digits of an exponent up to the one that goes beyond the limit, and whether one does. -/
def exponentDigits : List Char → Nat → Nat → Nat × Nat × Bool
  | [], used, value => (used, value, false)
  | d :: rest, used, value =>
    let value := 10 * value + (d.toNat - '0'.toNat)
    if exponentLimit < value then (used + 1, value, true) else exponentDigits rest (used + 1) value

/-- An exponent, whose mark is next: its value, or the sign of one beyond the limit. A number that
    is not zero must not have a positive exponent beyond the limit. -/
def exponent (atEnd : Cause) (isZero : Bool) : Reader (Except Bool Int) := do
  advance
  let positive ← do
    match ← peek with
    | some '+' => advance; pure true
    | some '-' => advance; pure false
    | _ => pure true
  match ← peek with
  | none => failHere atEnd
  | some c =>
    if ! c.isDigit then failPast .badNumber
    else
      let start ← get
      let found ← digits
      let (used, value, beyond) := exponentDigits found 0 0
      if beyond then
        if ! isZero && positive then
          throw ⟨.numberOutOfRange, { start.place with column := start.place.column + used }⟩
        else return .error positive
      else return .ok (if positive then value else - value)

/-- What a number's exponent mark is. -/
def isExponentMark (c : Option Char) : Bool :=
  c == some 'e' || c == some 'E'

/-- A number that has been read and must be finite. -/
def finite (x : Binary64) : Reader Number :=
  if x.isFinite then pure (.float x) else failHere .numberOutOfRange

/-- A number; a minus sign may be next. -/
def number : Reader Number := do
  let negative ← do
    match ← peek with
    | some '-' => advance; pure true
    | _ => pure false
  let whole ← wholeDigits .endInValue
  let next ← peek
  let fraction ← if next == some '.' then some <$> fractionDigits .endInValue else pure none
  let all := decimalValue (whole ++ fraction.getD [])
  let scale : Int := - (fraction.getD []).length
  if isExponentMark (← peek) then
    match ← exponent .endInValue (all == 0) with
    | .error _ => return .float (.ofMagnitude negative 0)
    | .ok e => finite (.ofDecimal negative all (scale + e))
  else if fraction.isSome then finite (.ofDecimal negative all scale)
  else
    match Number.ofNumeral negative all with
    | .int i => return .int i
    | .float x => finite x

/-- Moves over a number without asking for its value. -/
def skipNumber : Reader Unit := do
  if (← peek) == some '-' then advance
  let _ ← wholeDigits .badNumber
  if (← peek) == some '.' then
    let _ ← fractionDigits .badNumber
  if isExponentMark (← peek) then
    advance
    let sign ← peek
    if sign == some '+' || sign == some '-' then advance
    match ← peek with
    | none => failHere .badNumber
    | some c => if c.isDigit then let _ ← digits else failPast .badNumber

/-! ### Documents -/

/-- Repeats `step` until it has no more to give. Each round but the last uses up some text, so
    `fuel` of one more than the text's length is enough. -/
def rounds {β : Type} (step : β → Reader (Option β)) : (fuel : Nat) → β → Reader β
  | 0, b => return b
  | fuel + 1, b => do
    match ← step b with
    | none => return b
    | some b => rounds step fuel b

/-- What all rounds of `step` make of `start`; it is told whether a round is the first. -/
def exhaust {β : Type} (step : Bool → β → Reader (Option β)) (start : β) : Reader β := do
  match ← step true start with
  | none => return start
  | some b => rounds (step false) ((← get).rest.length + 1) b

/-- Whether an item follows inside square brackets. -/
def hasItem (first : Bool) : Reader Bool := do
  match ← peekToken with
  | none => failPast .endInList
  | some ']' => return false
  | some c =>
    if first then return true
    else if c = ',' then
      advance
      match ← peekToken with
      | none => failPast .endInValue
      | some ']' => failPast .trailingComma
      | some _ => return true
    else failPast .noListCommaOrEnd

/-- Whether a member follows inside braces. -/
def hasMember (first : Bool) : Reader Bool := do
  match ← peekToken with
  | none => failPast .endInObject
  | some '\x7d' => return false
  | some c =>
    if first then if c = '\x22' then return true else failPast .keyNotString
    else if c = ',' then
      advance
      match ← peekToken with
      | none => failPast .endInValue
      | some '\x22' => return true
      | some '\x7d' => failPast .trailingComma
      | some _ => failPast .keyNotString
    else failPast .noObjectCommaOrEnd

def colon : Reader Unit := do
  match ← peekToken with
  | none => failPast .endInObject
  | some ':' => advance
  | some _ => failPast .noColon

/-- Items of a list up to its closing bracket. -/
def items {α : Type} (item : Reader α) : Reader (List α) := do
  let found ← exhaust (fun first found => do
    if ← hasItem first then return some ((← item) :: found) else return none) []
  advance
  return found.reverse

/-- What `member` makes of each member of an object in turn, up to the closing brace. Where it is
    called, the member's name has been read and the colon is next. -/
def membersFrom {β : Type} (member : String → β → Reader β) (start : β) : Reader β := do
  let result ← exhaust (fun first b => do
    if ← hasMember first then
      let name ← quotedText true
      return some (← member name b)
    else return none) start
  advance
  return result

/-- Members of an object up to its closing brace. -/
def members {α : Type} (value : Reader α) : Reader (List (String × α)) := do
  let found ← membersFrom (fun name found => do
    colon
    return (name, ← value) :: found) []
  return collectMembers found.reverse

/-- A document. Its brackets nest no deeper than `depth`, which is the room that reading starts
    with. -/
def valueWithin : (depth : Nat) → Reader Json
  | 0 => failPast .tooDeep
  | depth + 1 => do
    match ← peekToken with
    | none => failPast .endInValue
    | some 'n' => advance; word ['u', 'l', 'l']; return .null
    | some 't' => advance; word ['r', 'u', 'e']; return .bool true
    | some 'f' => advance; word ['a', 'l', 's', 'e']; return .bool false
    | some '\x22' => .str <$> quotedText true
    | some '[' => .arr <$> nested (items (valueWithin depth))
    | some '\x7b' => .obj <$> nested (members (valueWithin depth))
    | some c => if c == '-' || c.isDigit then .num <$> number else failPast .noValue

def value : Reader Json := do
  valueWithin (← get).room

/-- Whether another entry follows where entries are skipped. -/
def skipsOn (closing : Char) (atEnd noComma : Cause) (first : Bool) : Reader Bool := do
  match ← peekToken with
  | none => failPast atEnd
  | some c =>
    if c = closing then return false
    else if first then return true
    else if c = ',' then advance; return true
    else failPast noComma

/-- Moves over a document whose brackets nest no deeper than `depth`. -/
def skipWithin : (depth : Nat) → Reader Unit
  | 0 => failPast .tooDeep
  | depth + 1 => do
    match ← peekToken with
    | none => failPast .endInValue
    | some 'n' => advance; word ['u', 'l', 'l']
    | some 't' => advance; word ['r', 'u', 'e']
    | some 'f' => advance; word ['a', 'l', 's', 'e']
    | some '\x22' => let _ ← quotedText false
    | some '[' =>
      advance
      exhaust (fun first _ => do
        if ← skipsOn ']' .endInList .noListCommaOrEnd first then some <$> skipWithin depth
        else return none) ()
      advance
    | some '\x7b' =>
      advance
      exhaust (fun first _ => do
        if ← skipsOn '\x7d' .endInObject .noObjectCommaOrEnd first then
          match ← peekToken with
          | none => failPast .endInObject
          | some '\x22' =>
            let _ ← quotedText false
            colon
            some <$> skipWithin depth
          | some _ => failPast .keyNotString
        else return none) ()
      advance
    | some c => if c == '-' || c.isDigit then skipNumber else failPast .noValue

/-- Moves over a document. Every bracket is a character, so the text's length bounds the depth. -/
def skip : Reader Unit := do
  skipWithin ((← get).rest.length + 1)

end Reader

/-- The document that a text is. -/
def parse (text : String) : Except Fault Json :=
  readWhole standardRoom Reader.value text

/-- The number that a text is, without any white space around it. -/
def parseNumber? (text : String) : Option Number :=
  match Reader.number.run ⟨text.toList, ⟨1, 0⟩, standardRoom⟩ with
  | .ok (n, cursor) => if cursor.rest.isEmpty then some n else none
  | .error _ => none

end StackCompiler.Json
