import StackCompiler.Value.Basic

/-!
Declarations: what a program says about its resources, parameters, mappings, conditions
and outputs, with the places where it reads attributes of other resources.
-/
namespace StackCompiler

/-- Where a declaration was written. -/
structure Location where
  file : String
  line : Nat
deriving DecidableEq

def Location.text (l : Location) : String :=
  l.file ++ ":" ++ toString l.line

/-- An attribute that is read inside a declaration's value. -/
structure AttrUsage where
  resource : String
  name : String
  /-- Where in the value, as text. -/
  field : String
deriving DecidableEq

def AttrUsage.path (u : AttrUsage) : FieldPath :=
  FieldPath.parse u.field

structure ResourceDecl where
  name : String
  /-- The type in its declared form. -/
  type : String
  location : Option Location := none
  /-- Every declaration that this one refers to. -/
  dependencies : List String := []
  /-- Dependencies that the template states. -/
  dependsOn : List String := []
  attrUsages : List AttrUsage := []
  condition : Option String := none
  deletionPolicy : Option String := none
  updateReplacePolicy : Option String := none
  metadata : Option Value := none

/-- The attributes that a declaration of any kind reads, and the fields in which it uses the value
    of another declaration as it is. -/
structure Forwarding where
  attrUsages : List AttrUsage := []
  fields : List (String × String) := []
deriving DecidableEq

/-- A parameter, mapping or condition. -/
structure ItemDecl where
  name : String
  location : Option Location := none
deriving DecidableEq

structure OutputDecl where
  name : String
  location : Option Location := none
  description : Option String := none
  value : Value := .null
  /-- The export name alone. -/
  exportName : Option Value := none
  /-- The export as an object. -/
  exportBlock : Option Value := none
  condition : Option String := none
  attrUsages : List AttrUsage := []

structure Declarations where
  description : Option String := none
  resources : List ResourceDecl := []
  forwardings : List (String × Forwarding) := []
  parameters : List ItemDecl := []
  mappings : List ItemDecl := []
  conditions : List ItemDecl := []
  outputs : List OutputDecl := []
  /-- The value of each declaration. -/
  values : List (String × Value) := []

/-- The value of a declaration; null where none is given. -/
def Declarations.valueOf (d : Declarations) (name : String) : Value :=
  (d.values.lookup name).getD .null

end StackCompiler
