import StackCompiler.Json.Fault

/-!
A place while a JSON text is being read, and the readers that move it on. A fault
is placed either where reading stands or just past the byte that it stumbled on.
-/
namespace StackCompiler.Json

structure Cursor where
  rest : List Char
  place : Place
  /-- How many more brackets may be opened, plus one. -/
  room : Nat

/-- A reader consumes the start of a text or finds a fault in it. -/
abbrev Reader (α : Type) := StateT Cursor (Except Fault) α

/-- The place after the first `bytes` bytes of a character at `place`. -/
def Place.past (place : Place) (c : Char) (bytes : Nat) : Place :=
  if c = '\n' then ⟨place.line + 1, 0⟩ else ⟨place.line, place.column + bytes⟩

/-- The place after a whole character. -/
def Place.after (place : Place) (c : Char) : Place :=
  place.past c c.utf8Size

/-- The place after `bytes` bytes of a text that may end inside a character. -/
def Place.afterBytes (place : Place) : Nat → List Char → Place
  | 0, _ => place
  | _, [] => place
  | bytes, c :: rest =>
    if c.utf8Size < bytes then (place.after c).afterBytes (bytes - c.utf8Size) rest
    else place.past c bytes

/-- The place past the next byte; at the end of the text there is none to pass. -/
def Cursor.peeked (cursor : Cursor) : Place :=
  cursor.place.afterBytes 1 cursor.rest

namespace Reader

/-- A fault where reading stands. -/
def failHere {α : Type} (cause : Cause) : Reader α := do
  throw ⟨cause, (← get).place⟩

/-- A fault just past the next byte. -/
def failPast {α : Type} (cause : Cause) : Reader α := do
  throw ⟨cause, (← get).peeked⟩

/-- A fault that `message` words. Where the message ends with a place of its own, the fault is
    there, unless the place is on no line. -/
def refuse {α : Type} (message : String) : Reader α := do
  match placeAtEnd? message with
  | some (said, place) =>
    if place.line = 0 then failHere (.refused said) else throw ⟨.refused said, place⟩
  | none => failHere (.refused message)

/-- Moves over the next character. -/
def advance : Reader Unit :=
  modify fun cursor =>
    match cursor.rest with
    | [] => cursor
    | c :: rest => { cursor with rest := rest, place := cursor.place.after c }

def isSpace (c : Char) : Bool :=
  c == ' ' || c == '\n' || c == '\t' || c == '\r'

def skipSpaceFrom : List Char → Place → List Char × Place
  | [], place => ([], place)
  | c :: rest, place => if isSpace c then skipSpaceFrom rest (place.after c) else (c :: rest, place)

/-- Moves over white space and shows the character after it. -/
def peekToken : Reader (Option Char) := do
  let cursor ← get
  let (rest, place) := skipSpaceFrom cursor.rest cursor.place
  set { cursor with rest := rest, place := place }
  return rest.head?

/-- The next character, where reading stands. -/
def peek : Reader (Option Char) := do
  return (← get).rest.head?

/-- Moves over `ident`, one character after the other. -/
def word : List Char → Reader Unit
  | [] => pure ()
  | expected :: ident => do
    match ← peek with
    | none => failHere .endInValue
    | some c =>
      if c = expected then
        advance
        word ident
      else failPast .noIdent

/-- Reads between brackets: the opening one is next, and one level of nesting is used up
    until `body` is done. -/
def nested {α : Type} (body : Reader α) : Reader α := do
  let cursor ← get
  if cursor.room ≤ 1 then failPast .tooDeep
  else
    advance
    modify fun c => { c with room := c.room - 1 }
    let result ← body
    modify fun c => { c with room := c.room + 1 }
    return result

/-- Nothing but white space may be left. -/
def finish : Reader Unit := do
  match ← peekToken with
  | some _ => failPast .trailingCharacters
  | none => pure ()

end Reader

/-- Brackets that a document may have open at once, plus one. -/
def standardRoom : Nat := 128

/-- What `reader` makes of a whole text. -/
def readWhole {α : Type} (room : Nat) (reader : Reader α) (text : String) : Except Fault α :=
  ((do let result ← reader; Reader.finish; return result : Reader α).run
    ⟨text.toList, ⟨1, 0⟩, room⟩).map (·.1)

end StackCompiler.Json
