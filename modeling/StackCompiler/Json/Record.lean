import StackCompiler.Json.Reader

/-!
Reading JSON text into records. A record is an object, of which unknown members are
skipped, or a list of its fields in order. Faults are found in the order of the text.
-/
namespace StackCompiler.Json.Reader

/-- The place stands where reading wants something else: says what is there. -/
def failType {α : Type} (expected : String) : Reader α := do
  let found ← do
    match ← peekToken with
    | some 'n' => advance; word ['u', 'l', 'l']; pure Found.null
    | some 't' => advance; word ['r', 'u', 'e']; pure (Found.bool true)
    | some 'f' => advance; word ['a', 'l', 's', 'e']; pure (Found.bool false)
    | some '\x22' => Found.text <$> quotedText true
    | some '[' => pure Found.sequence
    | some '\x7b' => pure Found.map
    | some c => if c == '-' || c.isDigit then Found.number <$> number else failPast .noValue
    | none => failPast .endInValue
  failHere (.wrongType found expected)

def text : Reader String := do
  match ← peekToken with
  | some '\x22' => quotedText true
  | _ => failType "a string"

/-- A natural number below `2 ^ 32`. -/
def nat32 : Reader Nat := do
  match ← peekToken with
  | some c =>
    if c == '-' || c.isDigit then
      match ← number with
      | .int i =>
        if 0 ≤ i && i < twoPow 32 then return i.toNat
        else failHere (.wrongValue (.number (.int i)) "u32")
      | n => failHere (.wrongType (.number n) "u32")
    else failType "u32"
  | none => failType "u32"

/-- Nothing for `null`, and otherwise what `reader` reads. -/
def nullable {α : Type} (reader : Reader α) : Reader (Option α) := do
  match ← peekToken with
  | some 'n' => advance; word ['u', 'l', 'l']; return none
  | _ => some <$> reader

def sequenceOf {α : Type} (item : Reader α) : Reader (List α) := do
  match ← peekToken with
  | some '[' => nested (items item)
  | _ => failType "a sequence"

def mapOf {α : Type} (value : Reader α) : Reader (List (String × α)) := do
  match ← peekToken with
  | some '\x7b' => nested (members value)
  | _ => failType "a map"

/-- A field of the record `σ`. -/
structure Field (σ : Type) where
  name : String
  /-- Reads the field's value and gives what that changes. -/
  read : Reader (σ → σ)
  /-- Whether an object must have the field. -/
  required : Bool
  /-- Whether a list of fields may end before it. -/
  omissible : Bool

/-- A field that is read by `reader` and put into a record by `put`; it may be left out. -/
def field {σ α : Type} (name : String) (reader : Reader α) (put : α → σ → σ) : Field σ :=
  ⟨name, put <$> reader, false, true⟩

/-- A field that must be there. -/
def requiredField {σ α : Type} (name : String) (reader : Reader α) (put : α → σ → σ) : Field σ :=
  ⟨name, put <$> reader, true, false⟩

/-- A field that an object may lack but a list may not. -/
def unlistedField {σ α : Type} (name : String) (reader : Reader α) (put : α → σ → σ) : Field σ :=
  ⟨name, put <$> reader, false, false⟩

/-- The record that the members of an object make of `start`. -/
def recordMembers {σ : Type} (fields : List (Field σ)) (start : σ) : Reader σ := do
  let (result, seen) ← membersFrom (fun name (result, seen) => do
    match fields.find? (·.name == name) with
    | none => colon; skip; return (result, seen)
    | some f =>
      if seen.contains name then failHere (.repeatedField name)
      else
        colon
        return ((← f.read) result, name :: seen)) (start, [])
  match fields.find? fun f => f.required && ! seen.contains f.name with
  | some f => failHere (.missingField f.name)
  | none => return result

/-- After the last field that a list may have. -/
def endOfList : Reader Unit := do
  match ← peekToken with
  | some ']' => advance
  | some ',' =>
    advance
    match ← peekToken with
    | some ']' => failPast .trailingComma
    | _ => failPast .trailingCharacters
  | some _ => failPast .trailingCharacters
  | none => failPast .endInList

/-- The words for a record and the number of its fields. -/
def recordSize (title : String) (count : Nat) : String :=
  "struct " ++ title ++ " with " ++ toString count ++ (if count = 1 then " element" else " elements")

/-- The record that a list of fields makes of `start`; `position` fields have been passed. -/
def recordItems {σ : Type} (size : String) (position : Nat) : List (Field σ) → σ → Reader σ
  | [], result => return result
  | f :: rest, result => do
    if ← hasItem (position == 0) then
      recordItems size (position + 1) rest ((← f.read) result)
    else if f.omissible then recordItems size (position + 1) rest result
    else failHere (.wrongLength position size)

/-- A record with the fields `fields`, which start out as in `start`. -/
def record {σ : Type} (title : String) (fields : List (Field σ)) (start : σ) : Reader σ := do
  match ← peekToken with
  | some '\x7b' => nested (recordMembers fields start)
  | some '[' =>
    nested do
      let result ← recordItems (recordSize title fields.length) 0 fields start
      endOfList
      return result
  | _ => failType ("struct " ++ title)

end StackCompiler.Json.Reader
