import StackCompiler.Declaration.Basic
import StackCompiler.Json.Record
import StackCompiler.Value.Decode

/-!
Declarations from JSON text.
-/
namespace StackCompiler.Declarations

open Json.Reader

/-- A value in its wire form. -/
def readValue : Json.Reader Value := do
  match Value.ofJson (← value) with
  | .ok v => return v
  | .error e => refuse e.message

def readLocation : Json.Reader Location :=
  record "SourceLocation" [
    requiredField "file" text fun file l => { l with file },
    requiredField "line" nat32 fun line l => { l with line }] ⟨"", 0⟩

def readAttrUsage : Json.Reader AttrUsage :=
  record "AttrRefUsage" [
    requiredField "resource" text fun resource u => { u with resource },
    requiredField "attribute" text fun name u => { u with name },
    field "field_path" text fun field u => { u with field }] ⟨"", "", ""⟩

def readResource : Json.Reader ResourceDecl :=
  record "DiscoveredResource" [
    requiredField "name" text fun name r => { r with name },
    requiredField "type" text fun type r => { r with type },
    field "location" (nullable readLocation) fun location r => { r with location },
    field "dependencies" (sequenceOf text) fun dependencies r => { r with dependencies },
    field "depends_on" (sequenceOf text) fun dependsOn r => { r with dependsOn },
    field "attr_refs" (sequenceOf readAttrUsage) fun attrUsages r => { r with attrUsages },
    field "condition" (nullable text) fun condition r => { r with condition },
    field "deletion_policy" (nullable text) fun deletionPolicy r => { r with deletionPolicy },
    field "update_replace_policy" (nullable text) fun updateReplacePolicy r =>
      { r with updateReplacePolicy },
    field "metadata" (nullable readValue) fun metadata r => { r with metadata }]
    { name := "", type := "" }

def readForwarding : Json.Reader Forwarding :=
  record "VarAttrRefInfo" [
    field "attr_refs" (sequenceOf readAttrUsage) fun attrUsages f => { f with attrUsages },
    field "var_refs" (mapOf text) fun fields f => { f with fields }] {}

def readItem : Json.Reader ItemDecl :=
  record "DiscoveredItem" [
    requiredField "name" text fun name i => { i with name },
    field "location" (nullable readLocation) fun location i => { i with location }]
    { name := "" }

def readOutput : Json.Reader OutputDecl :=
  record "DiscoveredOutput" [
    requiredField "name" text fun name o => { o with name },
    field "location" (nullable readLocation) fun location o => { o with location },
    field "description" (nullable text) fun description o => { o with description },
    requiredField "value" readValue fun value o => { o with value },
    field "export_name" (nullable readValue) fun exportName o => { o with exportName },
    field "export" (nullable readValue) fun exportBlock o => { o with exportBlock },
    field "condition" (nullable text) fun condition o => { o with condition },
    field "attr_refs" (sequenceOf readAttrUsage) fun attrUsages o => { o with attrUsages }]
    { name := "" }

def reader : Json.Reader Declarations :=
  record "Declarations" [
    field "description" (nullable text) fun description d => { d with description },
    field "resources" (sequenceOf readResource) fun resources d => { d with resources },
    field "vars" (mapOf readForwarding) fun forwardings d => { d with forwardings },
    field "parameters" (sequenceOf readItem) fun parameters d => { d with parameters },
    field "mappings" (sequenceOf readItem) fun mappings d => { d with mappings },
    field "conditions" (sequenceOf readItem) fun conditions d => { d with conditions },
    field "outputs" (sequenceOf readOutput) fun outputs d => { d with outputs },
    field "values" (mapOf readValue) fun values d => { d with values }] {}

def parse (text : String) : Except Json.Fault Declarations :=
  Json.readWhole Json.standardRoom reader text

end StackCompiler.Declarations
