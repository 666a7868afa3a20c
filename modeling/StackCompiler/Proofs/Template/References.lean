import StackCompiler.Proofs.Distinct
import StackCompiler.Proofs.Template.Dotted
import StackCompiler.Template.References

/-!
The references of a template that was read. They stand in the properties and the metadata
of its resources, in its conditions and in the values and export names of its outputs.
The parameters that are referred to and the references that lead nowhere are exactly those
among them (`references_reported`), in the order in which these places are looked at. That
is not always the order of the document (`conditions_reported_late`).
-/
namespace StackCompiler

namespace Value

/-- A node refers to a name: it is the target of a reference or of an attribute whose resource is
    known, or a substitution asks for it and gives it no value of its own. -/
inductive RefersTo : Value → String → Prop
  | ref (name : String) : RefersTo (.fn (.ref name)) name
  | attribute {attr : AttrRef} (resolved : attr.resource ≠ "") : RefersTo (.fn (.getAtt attr)) attr.resource
  | placeholder {template asked : String} {bindings : List (String × Value)} (member : asked ∈ placeholders template)
      (free : beforeDot asked ∉ memberNames bindings) : RefersTo (.fn (.sub template bindings)) (beforeDot asked)

theorem mem_ownReferences_iff (node : Value) (name : String) : name ∈ node.ownReferences ↔ RefersTo node name := by
  constructor
  · intro own
    cases node with
    | fn call =>
      cases call with
      | ref target =>
        obtain rfl : name = target := by simpa [ownReferences, Intrinsic.target?] using own
        exact .ref name
      | getAtt attr =>
        by_cases resolved : attr.resource = ""
        · simp [ownReferences, Intrinsic.target?, resolved] at own
        · obtain rfl : name = attr.resource := by simpa [ownReferences, Intrinsic.target?, resolved] using own
          exact .attribute resolved
      | sub template bindings =>
        obtain ⟨listed, free⟩ := List.mem_filter.mp own
        obtain ⟨asked, member, rfl⟩ := List.mem_map.mp listed
        refine .placeholder member fun bound => ?_
        rw [(hasMember_iff _ _).mpr bound] at free
        cases free
      | _ => cases own
    | _ => cases own
  · rintro (name | ⟨resolved⟩ | ⟨member, free⟩)
    · exact List.mem_singleton_self name
    · simp [ownReferences, Intrinsic.target?, resolved]
    · refine List.mem_filter.mpr ⟨List.mem_map_of_mem member, ?_⟩
      rw [Bool.not_eq_true', ← Bool.not_eq_true, hasMember_iff]
      exact free

theorem mem_referencedNames_iff (v : Value) (name : String) :
    name ∈ v.referencedNames ↔ ∃ path node, (path, node) ∈ v.walk .root ∧ RefersTo node name := by
  simp only [referencedNames, List.mem_flatMap, Prod.exists, mem_ownReferences_iff]

end Value

namespace Template

/-! ### Where references are looked for -/

/-- `v` is one of the values in which references are looked for, and stands at `location`. -/
inductive Scans (t : Template) : (location : String) → Value → Prop
  | properties {name : String} {r : Resource} (member : (name, r) ∈ t.resources) :
      Scans t ("Resources." ++ name ++ ".Properties") r.properties
  | metadata {name : String} {r : Resource} {v : Value} (member : (name, r) ∈ t.resources) (given : r.metadata = some v) :
      Scans t ("Resources." ++ name ++ ".Metadata") v
  | condition {name : String} {v : Value} (member : (name, v) ∈ t.conditions) : Scans t ("Conditions." ++ name) v
  | output {name : String} {o : Output} (member : (name, o) ∈ t.outputs) : Scans t ("Outputs." ++ name ++ ".Value") o.value
  | exportName {name : String} {o : Output} {v : Value} (member : (name, o) ∈ t.outputs) (given : o.exportName = some v) :
      Scans t ("Outputs." ++ name ++ ".Export.Name") v

theorem mem_referringValues_iff (t : Template) (location : String) (v : Value) :
    (location, v) ∈ t.referringValues ↔ t.Scans location v := by
  constructor
  · intro member
    simp only [referringValues, List.mem_append, List.mem_flatMap, List.mem_map, List.mem_cons, Prod.mk.injEq,
      Option.mem_toList, Option.map_eq_some_iff] at member
    rcases member with (⟨⟨name, r⟩, member, ⟨rfl, rfl⟩ | ⟨w, given, rfl, rfl⟩⟩ | ⟨⟨name, w⟩, member, rfl, rfl⟩) |
      ⟨⟨name, o⟩, member, ⟨rfl, rfl⟩ | ⟨w, given, rfl, rfl⟩⟩
    · exact .properties member
    · exact .metadata member given
    · exact .condition member
    · exact .output member
    · exact .exportName member given
  · intro scans
    simp only [referringValues, List.mem_append, List.mem_flatMap, List.mem_map, List.mem_cons, Prod.mk.injEq,
      Option.mem_toList, Option.map_eq_some_iff]
    cases scans with
    | properties member => exact .inl (.inl ⟨_, member, .inl ⟨rfl, rfl⟩⟩)
    | metadata member given => exact .inl (.inl ⟨_, member, .inr ⟨_, given, rfl, rfl⟩⟩)
    | condition member => exact .inl (.inr ⟨_, member, rfl, rfl⟩)
    | output member => exact .inr ⟨_, member, .inl ⟨rfl, rfl⟩⟩
    | exportName member given => exact .inr ⟨_, member, .inr ⟨_, given, rfl, rfl⟩⟩

/-- The location of the node at `path` in a value that stands at `location`. -/
def nodeLocation (location : String) (path : FieldPath) : String :=
  if path.isRoot then location else location ++ "." ++ path.text

/-- `r` stands in one of the values in which references are looked for. -/
def Mentions (t : Template) (r : Reference) : Prop :=
  ∃ location v path node, t.Scans location v ∧ (path, node) ∈ v.walk .root ∧ node.RefersTo r.target ∧
    r.location = nodeLocation location path

theorem mem_references_iff (t : Template) (r : Reference) : r ∈ t.references ↔ t.Mentions r := by
  simp only [references, referencesIn, List.mem_flatMap, List.mem_map, Prod.exists, mem_referringValues_iff,
    Value.mem_ownReferences_iff, Mentions]
  constructor
  · rintro ⟨location, v, scans, path, node, inside, target, refers, rfl⟩
    exact ⟨location, v, path, node, scans, inside, refers, rfl⟩
  · rintro ⟨location, v, path, node, scans, inside, refers, place⟩
    exact ⟨location, v, scans, path, node, inside, r.target, refers, by rw [nodeLocation] at place; rw [← place]⟩

/-- A name is the target of a reference exactly if one of the values refers to it. -/
theorem exists_mentions_iff (t : Template) (name : String) :
    (∃ r, t.Mentions r ∧ r.target = name) ↔ ∃ location v, t.Scans location v ∧ name ∈ v.referencedNames := by
  simp only [Value.mem_referencedNames_iff]
  constructor
  · rintro ⟨r, ⟨location, v, path, node, scans, inside, refers, -⟩, rfl⟩
    exact ⟨location, v, scans, path, node, inside, refers⟩
  · rintro ⟨location, v, scans, path, node, inside, refers⟩
    exact ⟨⟨nodeLocation location path, name⟩, ⟨location, v, path, node, scans, inside, refers, rfl⟩, rfl⟩

/-! ### Names that are known -/

/-- A function's event makes an interface called `name`: it is of a type that needs one and names
    none. -/
def EventMakes (r : Resource) (name : String) : Prop :=
  r.type = "AWS::Serverless::Function" ∧
    ∃ events label event api, (r.properties.get? "Events").bind Value.asObj? = some events ∧ (label, event) ∈ events ∧
      api ∈ implicitApis ∧ api.name = name ∧ (event.get? "Type").bind Value.asStr? = some api.eventType ∧
      (event.get? "Properties").bind (Value.get? api.property) = none

/-- `name` is a resource that comes with one of the template's resources. -/
def Implicit (t : Template) (name : String) : Prop :=
  ∃ logical r, (logical, r) ∈ t.resources ∧ ((∃ suffix ∈ companions r.type, name = logical ++ suffix) ∨ EventMakes r name)

/-- `name` is a resource, a parameter, a resource that comes with another, or a pseudo parameter. -/
def Known (t : Template) (name : String) : Prop :=
  name ∈ memberNames t.resources ∨ name ∈ memberNames t.parameters ∨ t.Implicit name ∨ name ∈ pseudoParameters

theorem mem_apisOfFunction_iff (r : Resource) (name : String) : name ∈ apisOfFunction r ↔ EventMakes r name := by
  unfold apisOfFunction EventMakes
  by_cases serverless : r.type = "AWS::Serverless::Function"
  · rw [if_pos serverless, and_iff_right serverless]
    cases (r.properties.get? "Events").bind Value.asObj? with
    | none => simp
    | some events =>
      simp only [apisOfEvent, List.mem_flatMap, List.mem_map, List.mem_filter, Bool.and_eq_true, beq_iff_eq,
        Option.isNone_iff_eq_none, Option.some.injEq, Prod.exists]
      constructor
      · rintro ⟨label, event, member, api, ⟨known, type, unnamed⟩, rfl⟩
        exact ⟨events, label, event, api, rfl, member, known, rfl, type, unnamed⟩
      · rintro ⟨_, label, event, api, rfl, member, known, rfl, type, unnamed⟩
        exact ⟨label, event, member, api, ⟨known, type, unnamed⟩, rfl⟩
  · simp [serverless]

theorem mem_implicitResources_iff (t : Template) (name : String) : name ∈ t.implicitResources ↔ t.Implicit name := by
  simp only [implicitResources, implicitOf, mem_sortedNames, List.mem_flatMap, List.mem_append, List.mem_map,
    mem_apisOfFunction_iff, Prod.exists, Implicit, eq_comm]

theorem isKnownTarget_iff (t : Template) (name : String) : t.isKnownTarget name = true ↔ t.Known name := by
  simp only [isKnownTarget, Bool.or_eq_true, hasMember_iff, List.contains_iff_mem, mem_implicitResources_iff, Known,
    or_assoc]

/-! ### What is reported -/

theorem mem_referencedParameters_iff (t : Template) (name : String) :
    name ∈ t.referencedParameters ↔
      name ∈ memberNames t.parameters ∧ ∃ location v, t.Scans location v ∧ name ∈ v.referencedNames := by
  rw [referencedParameters, mem_sortedNames, List.mem_filter, hasMember_iff, List.mem_map, ← exists_mentions_iff,
    and_comm]
  simp only [mem_references_iff]

theorem mem_undefinedReferences_iff (t : Template) (r : Reference) :
    r ∈ t.undefinedReferences ↔ t.Mentions r ∧ ¬ t.Known r.target := by
  rw [undefinedReferences, mem_keepFirst, List.mem_filter, mem_references_iff, ← isKnownTarget_iff, Bool.not_eq_true',
    Bool.not_eq_true]

theorem pairwise_undefinedReferences (t : Template) :
    t.undefinedReferences.Pairwise fun a b => t.references.idxOf a < t.references.idxOf b := by
  rw [undefinedReferences, keepFirst_filter]
  exact (pairwise_idxOf_keepFirst _).filter _

/-- Nothing is reported exactly if every name is known that one of the values refers to. -/
theorem undefinedReferences_eq_nil_iff (t : Template) :
    t.undefinedReferences = [] ↔ ∀ location v, t.Scans location v → ∀ name ∈ v.referencedNames, t.isKnownTarget name = true := by
  simp only [List.eq_nil_iff_forall_not_mem, mem_undefinedReferences_iff, not_and, not_not, isKnownTarget_iff]
  constructor
  · intro known location v scans name referenced
    obtain ⟨r, mentions, rfl⟩ := (exists_mentions_iff t name).mpr ⟨location, v, scans, referenced⟩
    exact known r mentions
  · intro known r mentions
    obtain ⟨location, v, scans, referenced⟩ := (exists_mentions_iff t r.target).mp ⟨r, mentions, rfl⟩
    exact known location v scans r.target referenced

/-! ### The order of the document -/

/-- The names of the entries that a document has in a section. -/
def sectionNames (root : List (String × Json)) (sectionName : String) : List String :=
  match root.lookup sectionName with
  | some (.obj members) => memberNames members
  | _ => []

theorem readSection_names {α : Type} {root : List (String × Json)} {sectionName : String}
    {entry : String → Json → Except TemplateError α} {entries : List (String × α)}
    (done : readSection root sectionName entry = .ok entries) : memberNames entries = sectionNames root sectionName := by
  unfold readSection at done
  unfold sectionNames
  split at done
  · rename_i absent
    rw [absent, ← (pure_eq_ok _ _).mp done]
    rfl
  · rename_i empty
    rw [empty, ← (pure_eq_ok _ _).mp done]
    rfl
  · rename_i members found
    rw [found, readEntries_names done]
  · exact absurd done (throw_ne_ok _ _)

theorem readDocument_of_parse {text : String} {t : Template} {format : Format} (done : parse text = .ok (t, format)) :
    ∃ root, readDocument text = .ok (.obj root, format) ∧ ofMembers root = .ok t := by
  simp only [parse, bind_eq_ok, pure_eq_ok] at done
  obtain ⟨⟨json, read⟩, document, again, made, same⟩ := done
  obtain ⟨rfl, rfl⟩ := Prod.mk.inj same
  cases json with
  | obj root => exact ⟨root, document, made⟩
  | _ => exact absurd made (throw_ne_ok _ _)

/-- The entries of each section that is looked at stand in the order of the document. -/
structure EntriesInOrder (root : List (String × Json)) (t : Template) : Prop where
  resources : memberNames t.resources = sectionNames root "Resources"
  conditions : memberNames t.conditions = sectionNames root "Conditions"
  outputs : memberNames t.outputs = sectionNames root "Outputs"

/-- Of a template that was read, the parameters are reported that one of the values in question
    refers to, and the references to names that are not known, each of them once and in the order
    in which the references first come: first in the resources, each with its properties before
    its metadata, then in the conditions, then in the outputs, each with its value before its
    export name. -/
theorem references_reported {text : String} {t : Template} {format : Format} (parsed : parse text = .ok (t, format)) :
    (∃ root, readDocument text = .ok (.obj root, format) ∧ EntriesInOrder root t) ∧
      Ascending t.referencedParameters ∧
      (∀ name, name ∈ t.referencedParameters ↔
        name ∈ memberNames t.parameters ∧ ∃ location v, t.Scans location v ∧ name ∈ v.referencedNames) ∧
      (∀ r, r ∈ t.undefinedReferences ↔ t.Mentions r ∧ ¬ t.Known r.target) ∧
      t.undefinedReferences.Nodup ∧
      t.undefinedReferences.Pairwise (fun a b => t.references.idxOf a < t.references.idxOf b) ∧
      (t.undefinedReferences = [] ↔
        ∀ location v, t.Scans location v → ∀ name ∈ v.referencedNames, t.isKnownTarget name = true) := by
  obtain ⟨root, document, made⟩ := readDocument_of_parse parsed
  have fields := (ofMembers_eq_ok root t).mp made
  have order : EntriesInOrder root t :=
    ⟨readSection_names fields.resources, readSection_names fields.conditions, readSection_names fields.outputs⟩
  have first := pairwise_undefinedReferences t
  have once : t.undefinedReferences.Nodup := by
    refine first.imp fun less same => ?_
    rw [same] at less
    exact Nat.lt_irrefl _ less
  exact ⟨⟨root, document, order⟩, ascending_sortedNames _, mem_referencedParameters_iff t, mem_undefinedReferences_iff t,
    once, first, undefinedReferences_eq_nil_iff t⟩

/-- Conditions that stand before the resources. One of them and one of the resources refer to a name
    that is not declared. -/
def earlyText : String :=
  "\x7b\"Parameters\":\x7b\"Env\":\x7b\"Type\":\"String\"\x7d\x7d,\"Conditions\":\x7b\"Live\":\x7b\"Ref\":\"Stage\"\x7d\x7d,\"Resources\":\x7b\"Queue\":\x7b\"Type\":\"AWS::SQS::Queue\",\"Properties\":\x7b\"Tags\":[],\"QueueName\":\x7b\"Fn::Sub\":\"$\x7bEnv\x7d-$\x7bTeam\x7d\"\x7d\x7d\x7d\x7d\x7d"

def earlyTemplate : Template :=
  { Template.empty with
    parameters := [("Env", { type := "String" })]
    conditions := [("Live", .fn (.ref "Stage"))]
    resources := [("Queue",
      { type := "AWS::SQS::Queue"
        properties := .obj [("Tags", .arr []), ("QueueName", .fn (.sub "$\x7bEnv\x7d-$\x7bTeam\x7d" []))] })] }

def earlyDocument : List (String × Json) :=
  [("Parameters", .obj [("Env", .obj [("Type", .str "String")])]),
   ("Conditions", .obj [("Live", .obj [("Ref", .str "Stage")])]),
   ("Resources", .obj [("Queue", .obj
      [("Type", .str "AWS::SQS::Queue"),
       ("Properties", .obj [("Tags", .arr []), ("QueueName", .obj [("Fn::Sub", .str "$\x7bEnv\x7d-$\x7bTeam\x7d")])])])])]

theorem readDocument_early : readDocument earlyText = .ok (.obj earlyDocument, .json) := by decide +kernel

theorem parse_early : parse earlyText = .ok (earlyTemplate, .json) := by decide +kernel

theorem references_reported_early :
    parse earlyText = .ok (earlyTemplate, .json) ∧ "Env" ∈ earlyTemplate.referencedParameters ∧
      ¬ earlyTemplate.Known "Team" ∧ earlyTemplate.undefinedReferences ≠ [] := by
  obtain ⟨-, -, parameters, undefined, -⟩ := references_reported parse_early
  have team : ⟨"Resources.Queue.Properties.QueueName", "Team"⟩ ∈ earlyTemplate.undefinedReferences := by decide +kernel
  refine ⟨parse_early, (parameters "Env").mpr ⟨by decide, _, _, .properties List.mem_cons_self, ?_⟩,
    ((undefined _).mp team).2, List.ne_nil_of_mem team⟩
  decide +kernel

/-- The section that a reference stands in. -/
def Reference.sectionName (r : Reference) : String := Value.beforeDot r.location

/-- References of different sections stand in the order that the sections have in the document. -/
def SectionsInOrder (root : List (String × Json)) (found : List Reference) : Prop :=
  found.Pairwise fun a b => (memberNames root).idxOf a.sectionName ≤ (memberNames root).idxOf b.sectionName

/-- Conditions are looked at after the resources, also where the document has them before. -/
theorem conditions_reported_late :
    readDocument earlyText = .ok (.obj earlyDocument, .json) ∧ parse earlyText = .ok (earlyTemplate, .json) ∧
      memberNames earlyDocument = ["Parameters", "Conditions", "Resources"] ∧
      earlyTemplate.undefinedReferences =
        [⟨"Resources.Queue.Properties.QueueName", "Team"⟩, ⟨"Conditions.Live", "Stage"⟩] ∧
      ¬ SectionsInOrder earlyDocument earlyTemplate.undefinedReferences := by
  have found : earlyTemplate.undefinedReferences =
      [⟨"Resources.Queue.Properties.QueueName", "Team"⟩, ⟨"Conditions.Live", "Stage"⟩] := by decide +kernel
  refine ⟨readDocument_early, parse_early, rfl, found, fun ordered => ?_⟩
  rw [found] at ordered
  have late := (List.pairwise_cons.mp ordered).1 _ (List.mem_singleton_self _)
  revert late
  decide +kernel

end Template

end StackCompiler
