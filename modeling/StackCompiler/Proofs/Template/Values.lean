import StackCompiler.Template.Basic

/-!
The values that stand in a template.
-/
namespace StackCompiler

def Parameter.values (p : Parameter) : List Value := p.default.toList ++ p.allowedValues

def Resource.values (r : Resource) : List Value := r.properties :: r.metadata.toList

def Output.values (o : Output) : List Value := o.value :: o.exportName.toList

/-- Every value that stands anywhere in a template. -/
def Template.values (t : Template) : List Value :=
  t.transform.toList ++ t.parameters.flatMap (·.2.values) ++ t.mappings.map (·.2) ++ t.conditions.map (·.2)
    ++ t.resources.flatMap (·.2.values) ++ t.outputs.flatMap (·.2.values)

end StackCompiler
