import StackCompiler.Declaration.Reader
import StackCompiler.Proofs.Json.Record

/-!
What reading declarations gives: every value in them was decoded from a wire form
(`parse_valuesDecoded`).
-/
namespace StackCompiler.Declarations

open Json.Reader

/-- The values that declarations give, wherever they stand. -/
def givenValues (d : Declarations) : List Value :=
  d.values.map (·.2) ++ d.resources.flatMap (·.metadata.toList)
    ++ d.outputs.flatMap fun o => o.value :: (o.exportName.toList ++ o.exportBlock.toList)

/-- A value was decoded from a wire form. -/
def Wired (v : Value) : Prop := ∃ json, Value.ofJson json = .ok v

/-- Every value of declarations was decoded from a wire form. -/
def ValuesDecoded (d : Declarations) : Prop := ∀ v ∈ d.givenValues, Wired v

theorem gives_readValue : Gives readValue Wired := by
  refine gives_after fun json => ?_
  split
  case h_1 v decoded => exact gives_pure ⟨json, decoded⟩
  case h_2 => exact gives_refuse _

/-- Metadata is the only value of a resource. -/
theorem gives_readResource : Gives readResource fun r => ∀ v ∈ r.metadata, Wired v := by
  refine gives_record ?_ (fun v member => by cases member)
  simp only [List.forall_mem_cons, List.not_mem_nil, false_implies, implies_true, and_true]
  refine ⟨?name, ?type, ?location, ?dependencies, ?dependsOn, ?attrUsages, ?condition, ?deletionPolicy,
    ?updateReplacePolicy, ?metadata⟩
  case metadata => exact keeps_put (gives_nullable gives_readValue) fun _ _ wired _ => wired
  all_goals exact keeps_any fun _ _ => id

structure OutputWired (o : OutputDecl) : Prop where
  value : Wired o.value
  exportName : ∀ v ∈ o.exportName, Wired v
  exportBlock : ∀ v ∈ o.exportBlock, Wired v

theorem gives_readOutput : Gives readOutput OutputWired := by
  have start : OutputWired { name := "" } :=
    ⟨⟨.null, rfl⟩, fun v member => (by cases member), fun v member => (by cases member)⟩
  refine gives_record ?_ start
  simp only [List.forall_mem_cons, List.not_mem_nil, false_implies, implies_true, and_true]
  refine ⟨?name, ?location, ?description, ?value, ?exportName, ?exportBlock, ?condition, ?attrUsages⟩
  case value => exact keeps_put gives_readValue fun _ _ wired o => { o with value := wired }
  case exportName => exact keeps_put (gives_nullable gives_readValue) fun _ _ wired o => { o with exportName := wired }
  case exportBlock => exact keeps_put (gives_nullable gives_readValue) fun _ _ wired o => { o with exportBlock := wired }
  all_goals exact keeps_any fun _ _ o => ⟨o.value, o.exportName, o.exportBlock⟩

structure PartsWired (d : Declarations) : Prop where
  values : ∀ e ∈ d.values, Wired e.2
  resources : ∀ r ∈ d.resources, ∀ v ∈ r.metadata, Wired v
  outputs : ∀ o ∈ d.outputs, OutputWired o

theorem gives_reader : Gives reader PartsWired := by
  have start : PartsWired {} := ⟨List.forall_mem_nil _, List.forall_mem_nil _, List.forall_mem_nil _⟩
  refine gives_record ?_ start
  simp only [List.forall_mem_cons, List.not_mem_nil, false_implies, implies_true, and_true]
  refine ⟨?description, ?resources, ?forwardings, ?parameters, ?mappings, ?conditions, ?outputs, ?values⟩
  case resources => exact keeps_put (gives_sequenceOf gives_readResource) fun _ _ wired d => { d with resources := wired }
  case outputs => exact keeps_put (gives_sequenceOf gives_readOutput) fun _ _ wired d => { d with outputs := wired }
  case values => exact keeps_put (gives_mapOf gives_readValue) fun _ _ wired d => { d with values := wired.2 }
  all_goals exact keeps_any fun _ _ d => ⟨d.values, d.resources, d.outputs⟩

/-- Every value of declarations that were read was decoded from a wire form. -/
theorem parse_valuesDecoded {text : String} {d : Declarations} (done : parse text = .ok d) : d.ValuesDecoded := by
  have wired := Json.readWhole_gives gives_reader done
  simp only [ValuesDecoded, givenValues, List.forall_mem_append, List.forall_mem_flatMap, List.forall_mem_map,
    List.forall_mem_cons, Option.mem_toList]
  exact ⟨⟨wired.values, wired.resources⟩, fun o member =>
    ⟨(wired.outputs o member).value, (wired.outputs o member).exportName, (wired.outputs o member).exportBlock⟩⟩

end StackCompiler.Declarations
