import StackCompiler.Proofs.Outcome
import StackCompiler.Value.Decoder

/-!
How the arguments of calls are laid out. Every call is laid out in one of the ways in which its
function can be called, or is refused (`Function.laidOut`). What decoding does with a call depends
only on this, so proofs about it go by layouts.
-/
namespace StackCompiler

/-- The documents in the parameters of a transform with these members. -/
def parameterDocs (members : List (String × Json)) : List Json :=
  match members.lookup "Parameters" with
  | some (.obj parameters) => parameters.map (·.2)
  | _ => []

namespace Function

/-- The documents in the arguments of a call that are decoded as values. There are none where the
    arguments are not laid out as the function wants them. -/
def argumentDocs : Function → Json → List Json
  | sub, .arr [.str _, .obj bindings] => bindings.map (·.2)
  | join, .arr [.str _, values] => [values]
  | select, .arr [index, list] => [index, list]
  | cond, .arr [.str _, ifTrue, ifFalse] => [ifTrue, ifFalse]
  | equals, .arr [left, right] => [left, right]
  | and, .arr conditions => conditions
  | or, .arr conditions => conditions
  | not, .arr [operand] => [operand]
  | split, .arr [.str _, source] => [source]
  | base64, value => [value]
  | cidr, .arr [ipBlock, count, cidrBits] => [ipBlock, count, cidrBits]
  | importValue, name => [name]
  | findInMap, .arr [mapName, topKey, secondKey] => [mapName, topKey, secondKey]
  | transform, .obj members =>
    match members.lookup "Name" with
    | some (.str _) => parameterDocs members
    | _ => []
  | getAZs, region => [region]
  | _, _ => []

/-- A call that cannot be decoded, whoever decodes it, since something else is expected. -/
structure Refuses (f : Function) (entry : String × Json) (expected : String) : Prop where
  value : ∀ limit chain path, Value.decodeCall limit chain path f entry = throw (.malformed f.key path expected)
  decoder : ∀ path, Decoder.decodeCall path f entry = throw (.malformed f.key path expected)
  unread : f.argumentDocs entry.2 = []

theorem Refuses.value_ne_ok {f : Function} {entry : String × Json} {expected : String} {limit : Nat}
    {chain : List String} {path : FieldPath} (refuses : f.Refuses entry expected) (call : Intrinsic Value) :
    Value.decodeCall limit chain path f entry ≠ .ok call := by
  rw [refuses.value]
  exact throw_ne_ok _ _

/-- The ways in which a member of an object can be laid out as a call of a function. -/
inductive Layout : Function → String × Json → Prop
  | ref (key name : String) : Layout .ref (key, .str name)
  | listed (key resource name : String) : Layout .getAtt (key, .arr [.str resource, .str name])
  | computed (key resource : String) (members : List (String × Json)) :
      Layout .getAtt (key, .arr [.str resource, .obj members])
  | dotted (key : String) {text : String} {attr : AttrRef} (found : Value.dottedAttr? text = some attr) :
      Layout .getAtt (key, .str text)
  | template (key template : String) : Layout .sub (key, .str template)
  | bindings (key template : String) (bindings : List (String × Json)) :
      Layout .sub (key, .arr [.str template, .obj bindings])
  | join (key delimiter : String) (values : Json) : Layout .join (key, .arr [.str delimiter, values])
  | select (key : String) (index list : Json) : Layout .select (key, .arr [index, list])
  | cond (key condition : String) (ifTrue ifFalse : Json) : Layout .cond (key, .arr [.str condition, ifTrue, ifFalse])
  | equals (key : String) (left right : Json) : Layout .equals (key, .arr [left, right])
  | and (key : String) (conditions : List Json) : Layout .and (key, .arr conditions)
  | or (key : String) (conditions : List Json) : Layout .or (key, .arr conditions)
  | not (key : String) (operand : Json) : Layout .not (key, .arr [operand])
  | condition (key name : String) : Layout .condition (key, .str name)
  | split (key delimiter : String) (source : Json) : Layout .split (key, .arr [.str delimiter, source])
  | base64 (key : String) (value : Json) : Layout .base64 (key, value)
  | cidr (key : String) (ipBlock count cidrBits : Json) : Layout .cidr (key, .arr [ipBlock, count, cidrBits])
  | importValue (key : String) (name : Json) : Layout .importValue (key, name)
  | findInMap (key : String) (mapName topKey secondKey : Json) :
      Layout .findInMap (key, .arr [mapName, topKey, secondKey])
  | transform (key : String) {name : String} {members : List (String × Json)}
      (found : members.lookup "Name" = some (.str name)) : Layout .transform (key, .obj members)
  | getAZs (key : String) (region : Json) : Layout .getAZs (key, region)
  | refused {f : Function} {entry : String × Json} (expected : String) (refuses : f.Refuses entry expected) : Layout f entry

theorem laidOut (f : Function) (entry : String × Json) : f.Layout entry := by
  -- The cases are those of decoding, in their order.
  fun_cases Value.decodeCall 0 [] .root f entry
  · exact .ref _ _
  · exact .listed _ _ _
  · exact .computed _ _ _
  · exact .dotted _ ‹_›
  · rename_i undotted
    exact .refused _ ⟨fun _ _ _ => by rw [Value.decodeCall, undotted], fun _ => by rw [Decoder.decodeCall, undotted], rfl⟩
  · exact .template _ _
  · exact .bindings _ _ _
  · rename_i unbound
    refine .refused "[template, variables]" ⟨fun _ _ _ => ?_, fun _ => ?_, ?_⟩
    · rw [Value.decodeCall]
      exact unbound
    · rw [Decoder.decodeCall]
      exact unbound
    · rw [argumentDocs] <;> grind
  · exact .join _ _ _
  · exact .select _ _ _
  · exact .cond _ _ _ _
  · rename_i unnamed
    refine .refused "a condition name as first argument" ⟨fun _ _ _ => ?_, fun _ => ?_, ?_⟩
    · rw [Value.decodeCall]
      exact unnamed
    · rw [Decoder.decodeCall]
      exact unnamed
    · rw [argumentDocs] <;> grind
  · exact .equals _ _ _
  · exact .and _ _
  · exact .or _ _
  · exact .not _ _
  · exact .condition _ _
  · exact .split _ _ _
  · exact .base64 _ _
  · exact .cidr _ _ _ _
  · exact .importValue _ _
  · exact .findInMap _ _ _ _
  · exact .transform _ ‹_›
  · refine .refused "a Name string" ⟨fun _ _ _ => ?_, fun _ => ?_, ?_⟩
    · rw [Value.decodeCall]
      grind
    · rw [Decoder.decodeCall]
      grind
    · rw [argumentDocs]
      grind
  · exact .getAZs _ _
  · refine .refused f.layout ⟨fun _ _ _ => ?_, fun _ => ?_, ?_⟩
    · rw [Value.decodeCall] <;> assumption
    · rw [Decoder.decodeCall] <;> assumption
    · obtain ⟨key, args⟩ := entry
      rw [argumentDocs] <;> intros <;> subst_vars <;> grind

end Function

end StackCompiler
