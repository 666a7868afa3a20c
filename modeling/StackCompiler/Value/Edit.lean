import StackCompiler.Value.Walk

/-!
Changing a value node by node, from the root down. A visitor sees each node with its
path, may put another value in its place, and says whether the nodes inside what
stands there now are visited too.
-/
namespace StackCompiler.Value

section Children

variable {m : Type → Type} [Monad m]

def mapItemsM (f : FieldPath → Value → m Value) (base : FieldPath) (position : Nat) :
    List Value → m (List Value)
  | [] => pure []
  | item :: rest => do
    let item ← f (base.index position) item
    return item :: (← mapItemsM f base (position + 1) rest)

def mapMembersM (f : FieldPath → Value → m Value) (base : FieldPath) :
    List (String × Value) → m (List (String × Value))
  | [] => pure []
  | (name, value) :: rest => do
    let value ← f (base.key name) value
    return (name, value) :: (← mapMembersM f base rest)

/-- A call after `f` on each of its arguments that are values, in their order. -/
def mapArgsM (f : FieldPath → Value → m Value) (base : FieldPath) :
    Intrinsic Value → m (Intrinsic Value)
  | .sub template bindings => .sub template <$> mapMembersM f (base.key "Variables") bindings
  | .join delimiter values => .join delimiter <$> f (base.key "Values") values
  | .select index list => do
    return .select (← f (base.key "Index") index) (← f (base.key "List") list)
  | .cond condition ifTrue ifFalse => do
    return .cond condition (← f (base.key "ValueIfTrue") ifTrue)
      (← f (base.key "ValueIfFalse") ifFalse)
  | .equals left right => do
    return .equals (← f (base.key "Value1") left) (← f (base.key "Value2") right)
  | .and conditions => .and <$> mapItemsM f (base.key "Conditions") 0 conditions
  | .or conditions => .or <$> mapItemsM f (base.key "Conditions") 0 conditions
  | .not operand => .not <$> f (base.key "Condition") operand
  | .split delimiter source => .split delimiter <$> f (base.key "Source") source
  | .base64 value => .base64 <$> f (base.key "Value") value
  | .cidr ipBlock count cidrBits => do
    return .cidr (← f (base.key "IpBlock") ipBlock) (← f (base.key "Count") count)
      (← f (base.key "CidrBits") cidrBits)
  | .importValue name => .importValue <$> f (base.key "Name") name
  | .findInMap mapName topKey secondKey => do
    return .findInMap (← f (base.key "MapName") mapName) (← f (base.key "TopLevelKey") topKey)
      (← f (base.key "SecondLevelKey") secondKey)
  | .transform name parameters =>
    .transform name <$> mapMembersM f (base.key "Parameters") parameters
  | .getAZs region => .getAZs <$> f (base.key "Region") region
  | .ref name => pure (.ref name)
  | .getAtt attr => pure (.getAtt attr)
  | .condition name => pure (.condition name)
  | .verbatim key args => pure (.verbatim key args)

/-- A value after `f` on each of the nodes right inside it, in their order. -/
def mapChildrenM (f : FieldPath → Value → m Value) (base : FieldPath) : Value → m Value
  | .arr items => .arr <$> mapItemsM f base 0 items
  | .obj members => .obj <$> mapMembersM f base members
  | .fn call => .fn <$> mapArgsM f base call
  | .null => pure .null
  | .bool b => pure (.bool b)
  | .num n => pure (.num n)
  | .str s => pure (.str s)

end Children

/-- What a visitor says about a node. -/
inductive Visit where
  /-- `value` stands there now, and its own nodes are next. -/
  | descend (value : Value)
  /-- `value` stands there now, and its own nodes stay as they are. -/
  | leave (value : Value)
  /-- The walk ends; this node and all that are not reached yet stay as they are. -/
  | stop

/-- How far a walk has come: what its visitor keeps, and whether the walk has ended. -/
structure Progress (σ : Type) where
  state : σ
  stopped : Bool

variable {σ : Type}

/-- Walks through a value that stands at `base`, at most `levels` levels down: what a visitor puts
    in place of a node may always be deeper than the node was. -/
def edit (visit : FieldPath → Value → σ → σ × Visit) :
    (levels : Nat) → FieldPath → Value → StateM (Progress σ) Value
  | 0, _, value => pure value
  | levels + 1, base, value => do
    let progress ← get
    if progress.stopped then return value
    else
      match visit base value progress.state with
      | (state, .descend value) =>
        set (Progress.mk state false)
        mapChildrenM (edit visit levels) base value
      | (state, .leave value) =>
        set (Progress.mk state false)
        return value
      | (state, .stop) =>
        set (Progress.mk state true)
        return value

/-- Levels that are enough for a walk in which each of `values` comes to stand below itself at most
    once. -/
def levelsOf (values : List Value) : Nat :=
  2 * (values.flatMap fun value => value.walk .root).length

end StackCompiler.Value
