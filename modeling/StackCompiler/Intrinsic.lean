import StackCompiler.FieldPath
import StackCompiler.Json.Basic

/-!
The functions that a template may call. On the wire each call is an object with
one member: the function's key, and its arguments. The type of the arguments is a
parameter, because they may be values or still be documents.
-/
namespace StackCompiler

/-- The functions that are known. -/
inductive Function where
  | ref | getAtt | sub | join | select | cond | equals | and | or | not | condition | split | base64
  | cidr | importValue | findInMap | transform | getAZs
deriving DecidableEq

namespace Function

def all : List Function :=
  [ref, getAtt, sub, join, select, cond, equals, and, or, not, condition, split, base64, cidr,
   importValue, findInMap, transform, getAZs]

/-- The name of a function on the wire. -/
def key : Function → String
  | ref => "Ref"
  | getAtt => "Fn::GetAtt"
  | sub => "Fn::Sub"
  | join => "Fn::Join"
  | select => "Fn::Select"
  | cond => "Fn::If"
  | equals => "Fn::Equals"
  | and => "Fn::And"
  | or => "Fn::Or"
  | not => "Fn::Not"
  | condition => "Condition"
  | split => "Fn::Split"
  | base64 => "Fn::Base64"
  | cidr => "Fn::Cidr"
  | importValue => "Fn::ImportValue"
  | findInMap => "Fn::FindInMap"
  | transform => "Fn::Transform"
  | getAZs => "Fn::GetAZs"

def ofKey? (key : String) : Option Function :=
  all.find? (·.key == key)

/-- The names of a function's arguments, in their order on the wire. -/
def fields : Function → List String
  | ref => ["LogicalName"]
  | getAtt => ["LogicalName", "AttributeName"]
  | sub => ["String", "Variables"]
  | join => ["Delimiter", "Values"]
  | select => ["Index", "List"]
  | cond => ["Condition", "ValueIfTrue", "ValueIfFalse"]
  | equals => ["Value1", "Value2"]
  | and => ["Conditions"]
  | or => ["Conditions"]
  | not => ["Condition"]
  | condition => ["Name"]
  | split => ["Delimiter", "Source"]
  | base64 => ["Value"]
  | cidr => ["IpBlock", "Count", "CidrBits"]
  | importValue => ["Name"]
  | findInMap => ["MapName", "TopLevelKey", "SecondLevelKey"]
  | transform => ["Name", "Parameters"]
  | getAZs => ["Region"]

/-- The argument names of the function called `key`; a function that is not known has none. -/
def fieldsOf (key : String) : List String :=
  ((ofKey? key).map fields).getD []

end Function

/-- An attribute of a resource. While the resource is not known yet, its name is empty. -/
structure AttrRef where
  resource : String
  name : String
deriving DecidableEq

namespace AttrRef

def isZero (attr : AttrRef) : Bool :=
  attr.resource.isEmpty && attr.name.isEmpty

def isUnresolved (attr : AttrRef) : Bool :=
  attr.resource.isEmpty

end AttrRef

/-- A call of a function, with arguments of type `α`. -/
inductive Intrinsic (α : Type) where
  | ref (name : String)
  | getAtt (attr : AttrRef)
  | sub (template : String) (bindings : List (String × α))
  | join (delimiter : String) (values : α)
  | select (index list : α)
  | cond (condition : String) (ifTrue ifFalse : α)
  | equals (left right : α)
  | and (conditions : List α)
  | or (conditions : List α)
  | not (operand : α)
  | condition (name : String)
  | split (delimiter : String) (source : α)
  | base64 (value : α)
  | cidr (ipBlock count cidrBits : α)
  | importValue (name : α)
  | findInMap (mapName topKey secondKey : α)
  | transform (name : String) (parameters : List (String × α))
  | getAZs (region : α)
  /-- A call that is kept as it was written: of a function that is not known, or of an attribute
      whose name is computed. -/
  | verbatim (key : String) (args : Json)
deriving Inhabited

namespace Intrinsic

variable {α : Type}

/-- The function that is called, where it is known how its arguments are laid out. -/
def function? : Intrinsic α → Option Function
  | ref _ => some .ref
  | getAtt _ => some .getAtt
  | sub _ _ => some .sub
  | join _ _ => some .join
  | select _ _ => some .select
  | cond _ _ _ => some .cond
  | equals _ _ => some .equals
  | and _ => some .and
  | or _ => some .or
  | not _ => some .not
  | condition _ => some .condition
  | split _ _ => some .split
  | base64 _ => some .base64
  | cidr _ _ _ => some .cidr
  | importValue _ => some .importValue
  | findInMap _ _ _ => some .findInMap
  | transform _ _ => some .transform
  | getAZs _ => some .getAZs
  | verbatim _ _ => none

/-- The key of a call on the wire. -/
def key : Intrinsic α → String
  | verbatim key _ => key
  | f => (f.function?.map Function.key).getD ""

/-- How the keys of functions begin, but for the oldest of them. -/
def keyStart : List Char := "Fn::".toList

/-- The key without its namespace. -/
def shortName (f : Intrinsic α) : String :=
  let cs := f.key.toList
  if keyStart.isPrefixOf cs then String.ofList (cs.drop keyStart.length) else f.key

/-- The resource or parameter that a call points at directly. -/
def target? : Intrinsic α → Option String
  | ref name => some name
  | getAtt attr => if attr.resource.isEmpty then none else some attr.resource
  | _ => none

/-- Whether the result of a call is a list. -/
def yieldsList : Intrinsic α → Bool
  | split _ _ => true
  | getAZs _ => true
  | cidr _ _ _ => true
  | _ => false

/-- Items with the steps that lead to them from a list-valued argument. -/
def indexed (field : String) (start : Nat) : List α → List (List Segment × α)
  | [] => []
  | item :: rest => ([.key field, .index start], item) :: indexed field (start + 1) rest

/-- Members with the steps that lead to them from a map-valued argument. -/
def keyed (field : String) (members : List (String × α)) : List (List Segment × α) :=
  members.map fun (name, value) => ([.key field, .key name], value)

/-- The arguments that are values, each with the steps that lead to it from the call. Names,
    delimiters and templates are no values. -/
def args : Intrinsic α → List (List Segment × α)
  | ref _ => []
  | getAtt _ => []
  | sub _ bindings => keyed "Variables" bindings
  | join _ values => [([.key "Values"], values)]
  | select index list => [([.key "Index"], index), ([.key "List"], list)]
  | cond _ ifTrue ifFalse => [([.key "ValueIfTrue"], ifTrue), ([.key "ValueIfFalse"], ifFalse)]
  | equals left right => [([.key "Value1"], left), ([.key "Value2"], right)]
  | and conditions => indexed "Conditions" 0 conditions
  | or conditions => indexed "Conditions" 0 conditions
  | not operand => [([.key "Condition"], operand)]
  | condition _ => []
  | split _ source => [([.key "Source"], source)]
  | base64 value => [([.key "Value"], value)]
  | cidr ipBlock count cidrBits =>
    [([.key "IpBlock"], ipBlock), ([.key "Count"], count), ([.key "CidrBits"], cidrBits)]
  | importValue name => [([.key "Name"], name)]
  | findInMap mapName topKey secondKey =>
    [([.key "MapName"], mapName), ([.key "TopLevelKey"], topKey),
     ([.key "SecondLevelKey"], secondKey)]
  | transform _ parameters => keyed "Parameters" parameters
  | getAZs region => [([.key "Region"], region)]
  | verbatim _ _ => []

end Intrinsic

end StackCompiler
