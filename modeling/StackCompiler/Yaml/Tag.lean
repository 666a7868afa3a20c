import StackCompiler.Yaml.ScalarText

/-!
Tags of YAML nodes. A tag is a run of bytes: it may be spelled with escapes for bytes
that no text has, and a zero byte ends it.
-/
namespace StackCompiler.Yaml

structure Tag where
  bytes : List UInt8
deriving DecidableEq

namespace Tag

/-- The tag that bytes spell, which ends before the first zero byte. -/
def ofBytes (bytes : List UInt8) : Tag :=
  ⟨bytes.takeWhile (· != 0)⟩

def ofText (s : String) : Tag :=
  ofBytes s.toUTF8.toList

/-- One tag after the other. -/
def append (first second : Tag) : Tag :=
  ⟨first.bytes ++ second.bytes⟩

instance : Append Tag := ⟨append⟩

/-- How the tags of the types begin that every document knows. -/
def core : Tag :=
  ofText "tag:yaml.org,2002:"

/-- The tag of a type that every document knows. -/
def coreType (name : String) : Tag :=
  core ++ ofText name

def isEmpty (t : Tag) : Bool :=
  t.bytes.isEmpty

/-- Whether a tag is one of the document's own. -/
def isLocal (t : Tag) : Bool :=
  (ofText "!").bytes.isPrefixOf t.bytes

/-- The text whose bytes the tag has. -/
def text? (t : Tag) : Option String :=
  String.fromUTF8? ⟨t.bytes.toArray⟩

/-- The name of a tag of the document's own: what follows one or two exclamation marks. A tag of
    exclamation marks alone keeps one, and a tag that is no text has no name. -/
def localName? (t : Tag) : Option String :=
  if ! t.isLocal then none
  else do
    let name ← (if t.bytes.length == 1 then t else ⟨t.bytes.drop 1⟩).text?
    match name.toList with
    | '!' :: c :: rest => some (String.ofList (c :: rest))
    | _ => some name

/-! ### Spelling -/

/-- Characters of a tag. Between angle brackets, and in directives, there are some more. -/
def isTagChar (inBrackets : Bool) (c : Char) : Bool :=
  isWordChar c || ";/?:@&=+$.%!~*'()".toList.contains c || (inBrackets && ",[]".toList.contains c)

/-- How many bytes a character takes whose encoding starts with `byte`. -/
def encodedLength? (byte : Nat) : Option Nat :=
  if byte < 0x80 then some 1
  else if 0xc0 ≤ byte && byte < 0xe0 then some 2
  else if 0xe0 ≤ byte && byte < 0xf0 then some 3
  else if 0xf0 ≤ byte && byte < 0xf8 then some 4
  else none

/-- A byte written as a percent sign and two digits. -/
def escapedByte? : List Char → Option Nat
  | '%' :: high :: low :: _ => hexNumber? [high, low]
  | _ => none

/-- The later bytes of an encoded character. -/
def laterBytes? : (count : Nat) → List Char → Option (List UInt8)
  | 0, _ => some []
  | count + 1, cs => do
    let byte ← escapedByte? cs
    if byte / 64 == 2 then
      let bytes ← laterBytes? count (cs.drop 3)
      return byte.toUInt8 :: bytes
    else none

/-- The bytes of one character that are written with percent signs. They need not be those of any
    character, but there are as many as the first one says. -/
def escapedBytes? (cs : List Char) : Option (List UInt8) := do
  let byte ← escapedByte? cs
  let length ← encodedLength? byte
  let bytes ← laterBytes? (length - 1) (cs.drop 3)
  return byte.toUInt8 :: bytes

/-- The bytes that the characters of a tag spell, and how many characters these are. -/
def spelled? (inBrackets : Bool) : (fuel : Nat) → List Char → Option (List UInt8 × Nat)
  | 0, _ => some ([], 0)
  | fuel + 1, cs =>
    match cs with
    | [] => some ([], 0)
    | c :: rest =>
      if ! isTagChar inBrackets c then some ([], 0)
      else if c == '%' then do
        let found ← escapedBytes? cs
        let (bytes, n) ← spelled? inBrackets fuel (cs.drop (3 * found.length))
        return (found ++ bytes, n + 3 * found.length)
      else (spelled? inBrackets fuel rest).map fun (bytes, n) => (c.toNat.toUInt8 :: bytes, n + 1)

end Tag

end StackCompiler.Yaml
