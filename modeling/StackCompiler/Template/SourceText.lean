import StackCompiler.Number.Power
import StackCompiler.Text.Lines

/-!
Places in the text of a document, in bytes, for error reports.
-/
namespace StackCompiler

structure Span where
  offset : Nat
  length : Nat
deriving DecidableEq

namespace SourceText

/-- The byte at a line and a column, which both count from one. It is never past the end. Bytes are
    counted in words of 64 bits, in which the sum is taken before it is cut off at the end. -/
def offsetOf (source : String) (line column : Nat) : Nat :=
  let before := ((Text.linesKept source.toList).take (line - 1)).flatten
  min ((Text.byteCount before + (column - 1)) % twoPow 64) source.utf8ByteSize

/-- The forms in which a name may stand in a document, in the order in which they are sought. -/
def keyForms (name : String) : List (List Char) :=
  let cs := name.toList
  ['\x22' :: cs ++ ['\x22'], cs ++ [':'], '\x27' :: cs ++ ['\x27']]

def isQuote (c : Char) : Bool :=
  c == '\x22' || c == '\x27'

/-- Where `name` first stands as a key. A quote at the start of the form is not part of it. -/
def keySpan? (source name : String) : Option Span :=
  (keyForms name).findSome? fun form =>
    (Text.findFirst? form source.toList).map fun position =>
      let quote := if form.head?.any isQuote then 1 else 0
      ⟨Text.byteCount (source.toList.take position) + quote, name.utf8ByteSize⟩

end SourceText

end StackCompiler
