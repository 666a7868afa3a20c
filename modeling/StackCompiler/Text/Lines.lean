/-!
Texts cut into lines and into parts.
-/
namespace StackCompiler.Text

/-- How many bytes a text takes. -/
def byteCount : List Char → Nat
  | [] => 0
  | c :: rest => c.utf8Size + byteCount rest

/-- The parts of a text between the characters that `cut` accepts; there is one more part than cuts. -/
def splitBy (cut : Char → Bool) : List Char → List (List Char)
  | [] => [[]]
  | c :: rest =>
    if cut c then [] :: splitBy cut rest
    else
      match splitBy cut rest with
      | [] => [[c]]
      | part :: parts => (c :: part) :: parts

/-- The lines of a text with their line feeds; only the last may lack one. -/
def linesKept : List Char → List (List Char)
  | [] => []
  | c :: rest =>
    if c = '\n' then [c] :: linesKept rest
    else
      match linesKept rest with
      | [] => [[c]]
      | line :: lines => (c :: line) :: lines

/-- A line without its line feed, and without the carriage return before the line feed. -/
def unterminated (line : List Char) : List Char :=
  match line.reverse with
  | '\n' :: '\r' :: rest => rest.reverse
  | '\n' :: rest => rest.reverse
  | _ => line

/-- The lines of a text. A line ends with a line feed, which may follow a carriage return. -/
def lines (cs : List Char) : List (List Char) :=
  (linesKept cs).map unterminated

/-- `text` with `margin` before every line that is not empty. -/
def indentLines (margin text : String) : String :=
  "\n".intercalate ((lines text.toList).map fun line =>
    if line.isEmpty then "" else margin ++ String.ofList line)

/-- The text before and after the first character that `found` accepts. -/
def splitFirst? (found : Char → Bool) (cs : List Char) : Option (List Char × List Char) :=
  match cs.dropWhile (! found ·) with
  | [] => none
  | _ :: rest => some (cs.takeWhile (! found ·), rest)

/-- The text before and after the last occurrence of `mark`, where there is one. -/
def splitLast? (mark cs : List Char) : Option (List Char × List Char) :=
  match cs with
  | [] => if mark.isEmpty then some ([], []) else none
  | c :: rest =>
    match splitLast? mark rest with
    | some (before, after) => some (c :: before, after)
    | none => if mark.isPrefixOf cs then some ([], cs.drop mark.length) else none

/-- Where `mark` first stands in a text, in characters. -/
def findFirst? (mark cs : List Char) : Option Nat :=
  if mark.isPrefixOf cs then some 0
  else
    match cs with
    | [] => none
    | _ :: rest => (findFirst? mark rest).map (· + 1)

end StackCompiler.Text
