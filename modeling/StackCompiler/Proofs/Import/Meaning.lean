import StackCompiler.Import.Cycle
import StackCompiler.Proofs.Import.Lowering
import StackCompiler.Proofs.Rust.Meaning
import StackCompiler.Proofs.Value.RoundTrip

/-!
The initialisers of a template's entries mean what the template says. The initialiser of a
value means the value's wire form (`meaning_argument`), so the declarations of parameters,
mappings, conditions and outputs mean the entries themselves, also after cycles are broken.
-/
namespace StackCompiler.Import

open Rust (Expr)
open Rust.Expr (itemMeanings fieldMeanings itemMeanings_map fieldMeanings_mapEntries fieldMeanings_append)

/-! ### Values -/

variable {ids : Identifiers}

/-- A call in source means the call on the wire if its arguments mean theirs. -/
theorem meaning_callExpr {call : Intrinsic Value}
    (args : ∀ w ∈ call.argValues, (argument ids w).meaning = some w.toJson) :
    (callExpr ids call).meaning = some (Value.fn call).toJson := by
  unfold Intrinsic.argValues at args
  cases call with
  | ref _ | getAtt _ | condition _ | verbatim _ _ | transform _ _ => rfl
  | sub template bindings =>
    rw [Intrinsic.args, Intrinsic.keyed_values] at args
    cases bindings with
    | nil => rfl
    | cons first rest =>
      have encoded : Value.argsToJson (.sub template (first :: rest)) =
          .arr [.str template, .obj (mapEntries Value.toJson (first :: rest))] := by
        rw [Value.argsToJson, Value.membersToJson_eq_mapEntries]
        rfl
      rw [callExpr_sub_cons, Value.toJson, encoded]
      simp only [Expr.meaning, itemMeanings, fieldMeanings_mapEntries args]
      rfl
  | and conditions | or conditions =>
    rw [Intrinsic.args, Intrinsic.indexed_values] at args
    rw [callExpr, arguments_eq_map, Value.toJson, Value.argsToJson, Value.itemsToJson_eq_map]
    simp only [Expr.meaning, itemMeanings, itemMeanings_map args]
    rfl
  | _ =>
    -- All others have a fixed number of arguments, each of which is lowered on its own.
    simp only [Intrinsic.args, List.map_cons, List.map_nil, List.forall_mem_cons] at args
    simp only [callExpr, Expr.meaning, itemMeanings, args]
    rfl

theorem meaning_argument (v : Value) : (argument ids v).meaning = some v.toJson := by
  induction v using Value.node_induction with
  | step v ih =>
    cases v with
    | fn call => exact meaning_callExpr ih
    | arr items =>
      rw [argument, arguments_eq_map, Expr.meaning, itemMeanings_map ih, Value.toJson, Value.itemsToJson_eq_map]
      rfl
    | null | bool _ | num _ | str _ | obj _ => rfl

/-! ### Entries -/

section Fields

variable {α : Type} {initialiser : α → Expr} {document : α → Json}

theorem fieldMeanings_optionalField {o : Option α} (name : String)
    (each : ∀ a ∈ o, (initialiser a).meaning = some (document a)) :
    fieldMeanings (optionalField name initialiser o) = some (optionalMember name document o) := by
  cases o with
  | none => rfl
  | some a => simp [optionalField, optionalMember, fieldMeanings, Expr.meaning, each a rfl]

theorem fieldMeanings_listField {items : List α} (name : String)
    (each : ∀ a ∈ items, (initialiser a).meaning = some (document a)) :
    fieldMeanings (listField name initialiser items) =
      some (listMember name (fun items => .arr (items.map document)) items) := by
  unfold listField listMember
  split
  · rfl
  · simp [fieldMeanings, Expr.meaning, itemMeanings_map each]

end Fields

/-- What a template says of a parameter, under the names of a declaration's fields. -/
def parameterRecord (p : Parameter) : Json :=
  .obj ([("param_type", .str p.type)]
    ++ optionalMember "description" .str p.description
    ++ optionalMember "default" Value.toJson p.default
    ++ listMember "allowed_values" (fun values => .arr (values.map Value.toJson)) p.allowedValues
    ++ optionalMember "allowed_pattern" .str p.allowedPattern
    ++ optionalMember "constraint_description" .str p.constraintDescription
    ++ optionalMember "min_length" .nat p.minLength
    ++ optionalMember "max_length" .nat p.maxLength
    ++ optionalMember "min_value" .num p.minValue
    ++ optionalMember "max_value" .num p.maxValue
    ++ (if p.noEcho then [("no_echo", .bool true)] else []))

/-- What a template says of an output, under the names of a declaration's fields. -/
def outputRecord (o : Output) : Json :=
  .obj (optionalMember "description" .str o.description
    ++ [("value", o.value.toJson)]
    ++ optionalMember "export" (fun name => .obj [("Name", name.toJson)]) o.exportName
    ++ optionalMember "condition" .str o.condition)

theorem meaning_parameterStatic (logical : String) (p : Parameter) :
    (parameterStatic ids logical p).body.meaning = some (parameterRecord p) := by
  refine Expr.meaning_struct ?_
  repeat' refine fieldMeanings_append ?_ ?_
  -- Texts and numbers mean themselves. What is left are the type, the values and the flag.
  any_goals exact fieldMeanings_optionalField _ fun _ _ => rfl
  · rfl
  · exact fieldMeanings_optionalField _ fun v _ => meaning_argument v
  · exact fieldMeanings_listField _ fun v _ => meaning_argument v
  · split <;> rfl

theorem meaning_mappingStatic (logical : String) (mapping : Value) :
    (mappingStatic ids logical mapping).body.meaning = some mapping.toJson :=
  rfl

theorem meaning_conditionStatic (logical : String) (condition : Value) :
    (conditionStatic ids logical condition).body.meaning = some condition.toJson := by
  simp only [conditionStatic, constructed, Expr.meaning, itemMeanings, meaning_argument]
  rfl

theorem meaning_outputStatic (logical : String) (o : Output) :
    (outputStatic ids logical o).body.meaning = some (outputRecord o) := by
  refine Expr.meaning_struct ?_
  have exported (name : Value) :
      (Expr.call "Export::new" [argument ids name]).meaning = some (.obj [("Name", name.toJson)]) := by
    simp only [Expr.meaning, itemMeanings, meaning_argument]
    rfl
  repeat' refine fieldMeanings_append ?_ ?_
  any_goals exact fieldMeanings_optionalField _ fun _ _ => rfl
  · simp [fieldMeanings, meaning_argument]
  · exact fieldMeanings_optionalField _ fun name _ => exported name

/-! ### Templates -/

/-- The entries of a template that are no resources, under their identifiers. -/
def entryMeanings (ids : Identifiers) (t : Template) : List (String × Option Json) :=
  t.parameters.map (fun e => (ids.of .parameter e.1, some (parameterRecord e.2)))
    ++ t.mappings.map (fun e => (ids.of .mapping e.1, some e.2.toJson))
    ++ t.conditions.map (fun e => (ids.of .condition e.1, some e.2.toJson))
    ++ t.outputs.map (fun e => (ids.of .output e.1, some (outputRecord e.2)))

/-- What declarations mean, under their identifiers. -/
def declaredMeanings (statics : List Static) : List (String × Option Json) :=
  statics.map fun s => (s.ident, s.body.meaning)

theorem declaredMeanings_breakCycles (statics : List Static) :
    declaredMeanings (breakCycles statics).1 = declaredMeanings statics := by
  unfold declaredMeanings breakCycles
  rw [List.map_map]
  refine List.map_congr_left fun s _ => congrArg (s.ident, ·) ?_
  let named := (walk statics).broken.filter (·.source == s.ident)
  have demoted : named.foldl (fun body edge => body.demote edge.target) s.body =
      (named.map (·.target)).foldl (fun e ident => e.demote ident) s.body := by rw [List.foldl_map]
  exact (congrArg Expr.meaning demoted).trans (Expr.meaning_demoteAll _ s.body)

theorem declaredMeanings_otherStatics (ids : Identifiers) (t : Template) :
    declaredMeanings (otherStatics ids t) = entryMeanings ids t := by
  simp only [declaredMeanings, otherStatics, entryMeanings, List.map_append, List.map_map, Function.comp_def,
    meaning_parameterStatic, meaning_mappingStatic, meaning_conditionStatic, meaning_outputStatic]
  rfl

/-- The initialiser of a value means the value, however many of its references are made by name. So
    the declarations of parameters, mappings, conditions and outputs, which stand after those of
    resources, mean what the template says, before cycles are broken and after. -/
theorem lowering_keeps_meaning :
    (∀ (ids : Identifiers) (v : Value) (byName : List String),
      (byName.foldl (fun e ident => e.demote ident) (argument ids v)).meaning = some v.toJson) ∧
    ∀ (schema : Schema) (t : Template) (statics : List Static) (progress : Progress),
      lowerTemplate schema t = .ok (statics, progress) →
      ∃ ids table, (assignIdents t).run reservedTable = .ok (ids, table) ∧
        entryMeanings ids t <:+ declaredMeanings statics ∧
        entryMeanings ids t <:+ declaredMeanings (breakCycles statics).1 := by
  constructor
  · intro ids v byName
    rw [Expr.meaning_demoteAll, meaning_argument]
  · intro schema t statics progress lowered
    obtain ⟨ids, table, resources, -, assigned, -, rfl⟩ := lowerTemplate_eq_ok lowered
    have last : entryMeanings ids t <:+ declaredMeanings (resources ++ otherStatics ids t) := by
      rw [declaredMeanings, List.map_append, ← declaredMeanings_otherStatics]
      exact List.suffix_append _ _
    rw [declaredMeanings_breakCycles]
    exact ⟨ids, table, assigned, last, last⟩

/-- A queue and a topic that refer to each other, and a condition with the name of the queue. -/
def stageTemplate : Template :=
  { Template.empty with
    parameters := [("Stage", { type := "String", default := some (.str "dev"), allowedValues := [.str "dev", .null] })]
    conditions := [("Queue", .fn (.not (.fn (.equals (.fn (.ref "Stage")) (.str "dev")))))]
    resources := [
      ("Queue", { type := "AWS::SQS::Queue", properties := .obj [("Name", .fn (.getAtt ⟨"Topic", "Name"⟩))] }),
      ("Topic", { type := "AWS::SNS::Topic", properties := .obj [("Name", .fn (.ref "Queue"))] })]
    outputs := [("Address", {
      value := .fn (.cond "Queue" (.fn (.getAtt ⟨"Queue", "Arn"⟩)) (.arr [.fn (.ref "Stage"), .num (.int 2)])),
      exportName := some (.fn (.sub "at" [("S", .fn (.ref "Stage"))])) })] }

theorem lowering_keeps_meaning_stage :
    ∃ statics progress, lowerTemplate .inferred stageTemplate = .ok (statics, progress) ∧
      (breakCycles statics).2 = [⟨"Topic", "Queue"⟩] ∧
      [("Stage", some (.obj [("param_type", .str "String"), ("default", .str "dev"),
          ("allowed_values", .arr [.str "dev", .null])])),
        ("QueueCondition", some (.obj [("Fn::Not", .arr [
          .obj [("Fn::Equals", .arr [.obj [("Ref", .str "Stage")], .str "dev"])]])])),
        ("Address", some (.obj [
          ("value", .obj [("Fn::If", .arr [.str "Queue", .obj [("Fn::GetAtt", .arr [.str "Queue", .str "Arn"])],
            .arr [.obj [("Ref", .str "Stage")], .num (.int 2)]])]),
          ("export", .obj [("Name", .obj [("Fn::Sub", .arr [.str "at", .obj [("S", .obj [("Ref", .str "Stage")])]])])])]))]
        <:+ declaredMeanings (breakCycles statics).1 := by
  have named : ((assignIdents stageTemplate).run reservedTable).toOption.map (·.1.entries) =
      some [((.resource, "Queue"), "Queue"), ((.resource, "Topic"), "Topic"), ((.parameter, "Stage"), "Stage"),
        ((.condition, "Queue"), "QueueCondition"), ((.output, "Address"), "Address")] := by decide +kernel
  have broken : ((lowerTemplate .inferred stageTemplate).toOption.map fun r => (breakCycles r.1).2) =
      some [⟨"Topic", "Queue"⟩] := by decide +kernel
  cases lowered : lowerTemplate .inferred stageTemplate with
  | error _ => rw [lowered] at broken; cases broken
  | ok r =>
    obtain ⟨statics, progress⟩ := r
    rw [lowered] at broken
    obtain ⟨⟨entries⟩, table, assigned, -, last⟩ := lowering_keeps_meaning.2 _ _ _ _ lowered
    rw [assigned] at named
    obtain rfl := Option.some.inj named
    exact ⟨statics, progress, rfl, Option.some.inj broken, last⟩

end StackCompiler.Import
