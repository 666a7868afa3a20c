import StackCompiler.Yaml.Token

/-!
The nodes of a YAML document, before aliases are followed and scalars understood.

Every name of an anchor has a number. A new definition takes the count of names so far
as its number, so a name that is defined again may come to share its number with
another name; an alias then means what was defined last under the number.
-/
namespace StackCompiler.Yaml

inductive Node where
  | scalar (text : String) (plain : Bool) (tag : Option Tag)
  | sequence (items : List Node) (tag : Option Tag)
  | mapping (entries : List (Node × Node)) (tag : Option Tag)
  | alias (number : Nat)
deriving Inhabited

/-- A node that an alias may mean. -/
structure Target where
  number : Nat
  /-- Where the node starts, in parts of the document. -/
  start : Nat
  node : Node

structure Document where
  root : Node
  targets : List Target
  /-- How many parts the document has: scalars, aliases, and starts and ends of collections. -/
  parts : Nat

namespace Node

/-- Nodes that are being read from tokens. -/
structure State where
  tokens : List Token
  /-- What the handles of tags stand for. -/
  handles : List (String × Tag)
  /-- The numbers of anchors. -/
  anchors : List (String × Nat)
  targets : List Target
  parts : Nat

/-- A step of reading nodes; nothing where the tokens are no document. -/
abbrev Read (α : Type) := StateT State Option α

namespace Read

def refuse {α : Type} : Read α :=
  StateT.lift none

def peek : Read (Option Token) := do
  return (← get).tokens.head?

def next : Read Unit :=
  modify fun s => { s with tokens := s.tokens.drop 1 }

/-- Counts a part of the document. -/
def part : Read Unit :=
  modify fun s => { s with parts := s.parts + 1 }

/-- Whether one of `ends` is next. -/
def isNext (ends : List Token) : Read Bool := do
  return (← peek).any ends.contains

/-- A node that is left out. -/
def missing : Read Node := do
  part
  return .scalar "" true none

/-- What stands before the content of a node. -/
structure Properties where
  anchor : Option String := none
  tag : Option Tag := none

/-- The tag that a handle and a rest stand for. -/
def expandTag (handle : String) (rest : Tag) : Read Tag := do
  if handle.isEmpty then return rest
  else
    match (← get).handles.lookup handle with
    | some meaning => return meaning ++ rest
    | none => refuse

/-- An anchor and a tag, in either order. -/
def properties : Read Properties := do
  match ← peek with
  | some (.anchor name) =>
    next
    match ← peek with
    | some (.tag handle rest) =>
      next
      return ⟨some name, some (← expandTag handle rest)⟩
    | _ => return ⟨some name, none⟩
  | some (.tag handle rest) =>
    next
    match ← peek with
    | some (.anchor name) =>
      next
      return ⟨some name, some (← expandTag handle rest)⟩
    | _ => return ⟨none, some (← expandTag handle rest)⟩
  | _ => return {}

/-- The number that an alias stands for. -/
def aliasNumber (name : String) : Read Nat := do
  match (← get).anchors.lookup name with
  | some number => return number
  | none => refuse

/-- The number that the next definition of an anchor takes. -/
def define (name : String) : Read Nat := do
  let s ← get
  let number := s.anchors.length
  let others := s.anchors.filter (·.1 != name)
  set { s with anchors := (name, number) :: others }
  return number

/-- Reads content and remembers it under the anchor that stands before it. The anchor may be used
    inside the content. -/
def anchored (anchor : Option String) (content : Read Node) : Read Node := do
  match anchor with
  | none => content
  | some name =>
    let start := (← get).parts
    let number ← define name
    let node ← content
    modify fun s => { s with targets := ⟨number, start, node⟩ :: s.targets }
    return node

/-- A collection: its start and its end are parts too. -/
def collection (content : Read Node) : Read Node := do
  next
  part
  let node ← content
  part
  return node

mutual

/-- A node. Blocks may be nodes only where `block` is set, and a sequence without indentation of its
    own only where `indentless` is. -/
def node : (fuel : Nat) → (block indentless : Bool) → Read Node
  | 0, _, _ => refuse
  | fuel + 1, block, indentless => do
    match ← peek with
    | some (.alias name) =>
      let number ← aliasNumber name
      next
      part
      return .alias number
    | _ =>
      let p ← properties
      let known := p.anchor.isSome || p.tag.isSome
      match ← peek with
      | some .blockEntry =>
        if indentless then
          anchored p.anchor do
            part
            let items ← indentlessItems fuel
            part
            return .sequence items p.tag
        else if known then anchored p.anchor (bare p.tag)
        else refuse
      | some (.scalar text plain) =>
        anchored p.anchor do
          next
          part
          return .scalar text plain p.tag
      | some .flowSequence =>
        anchored p.anchor (collection do return .sequence (← flowItems fuel true) p.tag)
      | some .flowMapping =>
        anchored p.anchor (collection do return .mapping (← flowEntries fuel true) p.tag)
      | some .blockSequence =>
        if block then
          anchored p.anchor (collection do return .sequence (← blockItems fuel) p.tag)
        else if known then anchored p.anchor (bare p.tag)
        else refuse
      | some .blockMapping =>
        if block then
          anchored p.anchor (collection do return .mapping (← blockEntries fuel) p.tag)
        else if known then anchored p.anchor (bare p.tag)
        else refuse
      | _ => if known then anchored p.anchor (bare p.tag) else refuse

/-- A node of which only an anchor or a tag is there. -/
def bare (tag : Option Tag) : Read Node := do
  part
  return .scalar "" true tag

/-- A node, or nothing where one of `ends` is next. -/
def nodeUnless : (fuel : Nat) → (ends : List Token) → (block indentless : Bool) → Read Node
  | 0, _, _, _ => refuse
  | fuel + 1, ends, block, indentless => do
    if ← isNext ends then missing else node fuel block indentless

def blockItems : (fuel : Nat) → Read (List Node)
  | 0 => refuse
  | fuel + 1 => do
    match ← peek with
    | some .blockEntry =>
      next
      let item ← nodeUnless fuel [.blockEntry, .blockEnd] true false
      return item :: (← blockItems fuel)
    | some .blockEnd => next; return []
    | _ => refuse

def indentlessItems : (fuel : Nat) → Read (List Node)
  | 0 => refuse
  | fuel + 1 => do
    match ← peek with
    | some .blockEntry =>
      next
      let item ← nodeUnless fuel [.blockEntry, .key, .value, .blockEnd] true false
      return item :: (← indentlessItems fuel)
    | _ => return []

/-- The value of an entry whose key has been read; it may be left out. -/
def entryValue : (fuel : Nat) → (ends : List Token) → (block : Bool) → Read Node
  | 0, _, _ => refuse
  | fuel + 1, ends, block => do
    match ← peek with
    | some .value => next; nodeUnless fuel ends block block
    | _ => missing

def blockEntries : (fuel : Nat) → Read (List (Node × Node))
  | 0 => refuse
  | fuel + 1 => do
    match ← peek with
    | some .key =>
      next
      let key ← nodeUnless fuel [.key, .value, .blockEnd] true true
      let value ← entryValue fuel [.key, .value, .blockEnd] true
      return (key, value) :: (← blockEntries fuel)
    | some .blockEnd => next; return []
    | _ => refuse

def flowItems : (fuel : Nat) → (first : Bool) → Read (List Node)
  | 0, _ => refuse
  | fuel + 1, first => do
    match ← peek with
    | some .flowSequenceEnd => next; return []
    | t =>
      if ! first then
        if t == some .flowEntry then next else refuse
      match ← peek with
      | some .flowSequenceEnd => next; return []
      | some .key =>
        let item ← flowPair fuel
        return item :: (← flowItems fuel false)
      | _ =>
        let item ← node fuel false false
        return item :: (← flowItems fuel false)

/-- A mapping of one entry inside square brackets. Where its key is left out, the token in place of
    the key is lost. -/
def flowPair : (fuel : Nat) → Read Node
  | 0 => refuse
  | fuel + 1 =>
    collection do
      let key ← do
        if ← isNext [.value, .flowEntry, .flowSequenceEnd] then
          next
          missing
        else node fuel false false
      let value ← entryValue fuel [.flowEntry, .flowSequenceEnd] false
      return .mapping [(key, value)] none

def flowEntries : (fuel : Nat) → (first : Bool) → Read (List (Node × Node))
  | 0, _ => refuse
  | fuel + 1, first => do
    match ← peek with
    | some .flowMappingEnd => next; return []
    | t =>
      if ! first then
        if t == some .flowEntry then next else refuse
      match ← peek with
      | some .flowMappingEnd => next; return []
      | some .key =>
        next
        let key ← nodeUnless fuel [.value, .flowEntry, .flowMappingEnd] false false
        let value ← entryValue fuel [.flowEntry, .flowMappingEnd] false
        return (key, value) :: (← flowEntries fuel false)
      | _ =>
        let key ← node fuel false false
        let value ← missing
        return (key, value) :: (← flowEntries fuel false)

end

/-! ### Documents -/

/-- What the two shortest handles stand for where no directive says otherwise. -/
def standardHandles : List (String × Tag) :=
  [("!", .ofText "!"), ("!!", .core)]

/-- Reads directives; each may be given once, and only two versions are known. -/
def directives : (fuel : Nat) → (versioned : Bool) → Read Unit
  | 0, _ => refuse
  | fuel + 1, versioned => do
    match ← peek with
    | some (.versionDirective major minor) =>
      if versioned || major != 1 || (minor != 1 && minor != 2) then refuse
      else
        next
        directives fuel true
    | some (.tagDirective handle meaning) =>
      let s ← get
      if s.handles.any (·.1 == handle) then refuse
      else
        set { s with handles := s.handles ++ [(handle, meaning)] }
        next
        directives fuel versioned
    | _ => pure ()

def isDirective : Token → Bool
  | .versionDirective _ _ => true
  | .tagDirective _ _ => true
  | _ => false

/-- The root of the one document that there may be; an empty text has none. -/
def document (fuel : Nat) : Read (Option Node) := do
  match ← peek with
  | none => return none
  | some t =>
    let root ← do
      if isDirective t || t == .documentStart then
        directives fuel false
        if (← peek) != some .documentStart then refuse
        next
        modify fun s => { s with handles := s.handles ++ standardHandles }
        let t ← peek
        if t.all fun t => isDirective t || t == .documentStart || t == .documentEnd then missing
        else node fuel true false
      else
        modify fun s => { s with handles := standardHandles }
        node fuel true false
    modify fun s => { s with tokens := s.tokens.dropWhile (· == .documentEnd) }
    if (← peek).isSome then refuse
    return some root

end Read

end Node

/-- The document that tokens are. -/
def Document.ofTokens? (tokens : List Token) : Option Document := do
  let (root, s) ← (Node.Read.document (4 * tokens.length + 16)).run ⟨tokens, [], [], [], 0⟩
  return ⟨root.getD (.scalar "" true none), s.targets, s.parts⟩

end StackCompiler.Yaml
