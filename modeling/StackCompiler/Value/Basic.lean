import StackCompiler.Intrinsic
import StackCompiler.Number.Numeral

/-!
Values of a template: JSON documents in which calls of functions are nodes of their
own.
-/
namespace StackCompiler

inductive Value where
  | null
  | bool (b : Bool)
  | num (n : Number)
  | str (s : String)
  | arr (items : List Value)
  | obj (members : List (String × Value))
  | fn (call : Intrinsic Value)
deriving Inhabited

namespace Value

def isNull : Value → Bool
  | null => true
  | _ => false

def asStr? : Value → Option String
  | str s => some s
  | _ => none

/-- A truth value, which may also be spelled out in a text. -/
def asBool? : Value → Option Bool
  | bool b => some b
  | str "true" => some true
  | str "false" => some false
  | _ => none

/-- A number, which may also be spelled out in a text. -/
def asBinary64? : Value → Option Binary64
  | num n => some n.toBinary64
  | str s => Binary64.ofText? s.toList
  | _ => none

def asArr? : Value → Option (List Value)
  | arr items => some items
  | _ => none

def asObj? : Value → Option (List (String × Value))
  | obj members => some members
  | _ => none

def asFn? : Value → Option (Intrinsic Value)
  | fn call => some call
  | _ => none

/-- The member `name` of an object; nothing for other values. -/
def get? (name : String) : Value → Option Value
  | obj members => members.lookup name
  | _ => none

end Value

end StackCompiler
