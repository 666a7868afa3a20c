import StackCompiler.Text.Blank
import StackCompiler.Text.Case
import StackCompiler.Text.Lines

/-!
Names in other cases: words run together with capitals, or divided by underscores.
-/
namespace StackCompiler.Text

/-- Whether a character divides words and is left out where they run together. -/
def dividesWords (c : Char) : Bool :=
  c == '_' || c == '-' || c == '.' || c == ':' || isBlank c

def capitalized : List Char → List Char
  | [] => []
  | c :: rest => toUpper c ++ rest

/-- Words run together, each with a capital; other capitals stay. -/
def pascalCase (s : String) : String :=
  String.ofList ((splitBy dividesWords s.toList).flatMap capitalized)

/-- Whether a word starts at the capital `c` between `before` and `after`. A run of capitals is one
    word, but its last letter belongs to a word in small letters that follows. -/
def startsWord (before : Char) (after : Option Char) : Bool :=
  let small := after.any isLower
  isLower before || (before.isDigit && small) || (isUpper before && small)

/-- The text in small letters with underscores, after `before` and what is `written`, last
    character first. -/
def snakeFrom (before : Option Char) (written : List Char) : List Char → List Char
  | [] => written.reverse
  | c :: rest =>
    let endsWord := written.head? == some '_'
    if c == '-' || c == '.' || c == ' ' then
      snakeFrom (some c) (if endsWord || written.isEmpty then written else '_' :: written) rest
    else
      let divided := isUpper c && before.any (startsWord · rest.head?) && ! endsWord
      let written := if divided then '_' :: written else written
      snakeFrom (some c) ((toLower c).reverse ++ written) rest

/-- Words in small letters, divided by underscores. -/
def snakeCase (s : String) : String :=
  String.ofList (snakeFrom none [] s.toList)

end StackCompiler.Text
