import StackCompiler.Declaration.Repair
import StackCompiler.Registry.Type
import StackCompiler.Template.Basic

/-!
Templates from declarations. A build gives a whole template or the first error.
-/
namespace StackCompiler.Declarations

/-! ### Names and order -/

/-- Every declaration with its section, in the order in which names are checked. -/
def names (d : Declarations) : List (String × String × Option Location) :=
  d.resources.map (fun r => ("Resources", r.name, r.location))
    ++ d.parameters.map (fun p => ("Parameters", p.name, p.location))
    ++ d.mappings.map (fun m => ("Mappings", m.name, m.location))
    ++ d.conditions.map (fun c => ("Conditions", c.name, c.location))
    ++ d.outputs.map (fun o => ("Outputs", o.name, o.location))

/-- Checks names after those of `seen`, each of which is there with its section. -/
def checkNamesFrom (seen : List (String × String)) :
    List (String × String × Option Location) → Except BuildError Unit
  | [] => pure ()
  | (sectionName, name, location) :: rest =>
    match nameProblem? name with
    | some problem => throw (.invalidName name sectionName problem location)
    | none =>
      match seen.lookup name with
      | some first => throw (.duplicateName name first sectionName location)
      | none => checkNamesFrom ((name, sectionName) :: seen) rest

/-- All names are valid, and no two declarations of any sections share one. -/
def checkNames (d : Declarations) : Except BuildError Unit :=
  checkNamesFrom [] d.names

/-- The resources with what each depends on. -/
def graph (d : Declarations) : DependencyGraph :=
  let nodes := d.resources.foldl (fun g r => g.addNode r.name r.location) .empty
  d.resources.foldl (fun g r =>
    (r.dependencies ++ r.dependsOn).foldl (fun g target => g.addEdge r.name target) g) nodes

/-- The names of the resources, each after those that it depends on. -/
def order (d : Declarations) : Except BuildError (List String) := do
  d.checkNames
  match d.graph.order with
  | .ok names => return names
  | .error cycle => throw (.cycle cycle)

/-! ### Entries -/

/-- The number of a field; text may spell it. -/
def numberOf? (fields : List (String × Value)) (name : String) : Option Binary64 :=
  (fields.lookup name).bind Value.asBinary64?

/-- A number that is a length: a whole number below `2 ^ 32`. -/
def lengthOfNumber? (x : Binary64) : Option Nat :=
  (x.toInt?.filter fun i : Int => 0 ≤ i && i < twoPow 32).map Int.toNat

def lengthOf (name : String) (fields : List (String × Value)) (fieldName : String) :
    Except BuildError (Option Nat) :=
  match numberOf? fields fieldName with
  | none => pure none
  | some x =>
    match lengthOfNumber? x with
    | some length => pure (some length)
    | none =>
      throw (.serialization name
        (fieldName ++ " must be a non-negative integer, got " ++ x.text .message))

/-- A bound. Whole numbers up to a size that is exact become integers. -/
def boundOf (name : String) (fields : List (String × Value)) (fieldName : String) :
    Except BuildError (Option Number) :=
  match numberOf? fields fieldName with
  | none => pure none
  | some x =>
    match x.toInt? with
    | some i =>
      if i.natAbs < 9 * tenPow 15 then pure (some (.int i)) else pure (some (.float x))
    | none =>
      if x.isFinite then pure (some (.float x))
      else throw (.serialization name (fieldName ++ " is not a finite number"))

/-- A parameter from its value. Fields of another type than theirs count as absent. -/
def buildParameter (name : String) : Value → Except BuildError Parameter
  | .obj fields => do
    let text (fieldName : String) : Option String := (fields.lookup fieldName).bind Value.asStr?
    return {
      type := (text "Type").getD "String",
      description := text "Description",
      default := (fields.lookup "Default").filter (! ·.isNull),
      allowedValues := ((fields.lookup "AllowedValues").bind Value.asArr?).getD [],
      allowedPattern := text "AllowedPattern",
      constraintDescription := text "ConstraintDescription",
      minLength := ← lengthOf name fields "MinLength",
      maxLength := ← lengthOf name fields "MaxLength",
      minValue := ← boundOf name fields "MinValue",
      maxValue := ← boundOf name fields "MaxValue",
      noEcho := ((fields.lookup "NoEcho").bind Value.asBool?).getD false }
  | _ => throw (.serialization name "parameter value is not an object")

def buildResource (d : Declarations) (r : ResourceDecl) : Except BuildError Resource :=
  match DeclaredType.canonical? r.type with
  | none => throw (.unknownType r.name r.type r.location)
  | some type => do
    return {
      type := type,
      properties := ← (d.valueOf r.name).repairAt r.name (d.resolve r.name) .root,
      dependsOn := r.dependsOn,
      condition := r.condition,
      deletionPolicy := r.deletionPolicy,
      updateReplacePolicy := r.updateReplacePolicy,
      metadata := r.metadata }

/-- The export name of an output: the one given alone, or else the one in the block. -/
def exportName (o : OutputDecl) : Except BuildError (Option Value) :=
  match o.exportName, o.exportBlock with
  | some name, _ => pure (some name)
  | none, some (.obj members) =>
    match members.lookup "Name" with
    | some name => pure (some name)
    | none => throw (.serialization o.name "export object has no 'Name' field")
  | none, some .null => pure none
  | none, some other => pure (some other)
  | none, none => pure none

def buildOutput (d : Declarations) (o : OutputDecl) : Except BuildError Output := do
  let value ← o.value.repairAt o.name (d.resolve o.name) (.parse "Value")
  return {
    description := o.description,
    value := value,
    exportName := ← exportName o,
    condition := o.condition }

/-! ### Templates -/

/-- The entries of a section, each under the name of its declaration. -/
def buildSection {α β : Type} (name : α → String) (entry : α → Except BuildError β) (decls : List α) :
    Except BuildError (List (String × β)) :=
  decls.mapM fun decl => return (name decl, ← entry decl)

def resource? (d : Declarations) (name : String) : Option ResourceDecl :=
  d.resources.find? (·.name == name)

def build (d : Declarations) : Except BuildError Template := do
  let ordered := (← d.order).filterMap d.resource?
  let resources ← buildSection (·.name) d.buildResource ordered
  let parameters ← buildSection (·.name) (fun p => buildParameter p.name (d.valueOf p.name)) d.parameters
  let outputs ← buildSection (·.name) d.buildOutput d.outputs
  let needsTransform := resources.any fun (_, r) => isServerless r.type
  return {
    formatVersion := Template.currentVersion,
    description := d.description,
    transform := if needsTransform then some (.str Template.serverlessTransform) else none,
    parameters := parameters,
    mappings := d.mappings.map fun m => (m.name, d.valueOf m.name),
    conditions := d.conditions.map fun c => (c.name, d.valueOf c.name),
    resources := resources,
    outputs := outputs }

end StackCompiler.Declarations
