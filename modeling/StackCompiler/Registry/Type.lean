import StackCompiler.Registry.Namespace
import StackCompiler.Text.Case
import StackCompiler.Text.Lines

/-!
Resource types. A declaration names its type by the short name of a namespace and a
kind, as in `s3.Bucket`; a template uses the canonical form `AWS::S3::Bucket`.
-/
namespace StackCompiler

namespace Namespace

/-- A canonical type up to its kind. -/
def qualified (ns : Namespace) : String :=
  ns.owner ++ "::" ++ ns.name

/-- The namespace with a short name, whose ASCII letters may be in either case. -/
def ofShort? (short : String) : Option Namespace :=
  all.find? (·.short == Text.asciiLower short)

def ofQualified? (qualified : String) : Option Namespace :=
  all.find? (·.qualified == qualified)

end Namespace

/-- A type in its declared form. -/
structure DeclaredType where
  ns : Namespace
  kind : String

namespace DeclaredType

def text (t : DeclaredType) : String :=
  t.ns.short ++ "." ++ t.kind

/-- The declared form of a canonical type; the kind is what follows the last double colon. -/
def ofCanonical? (canonical : String) : Option DeclaredType := do
  let (qualified, kind) ← Text.splitLast? [':', ':'] canonical.toList
  if kind.isEmpty then none
  else return ⟨← Namespace.ofQualified? (String.ofList qualified), String.ofList kind⟩

/-- The canonical form of a declared type; the kind is what follows the last dot. -/
def canonical? (declared : String) : Option String := do
  let (short, kind) ← Text.splitLast? ['.'] declared.toList
  if short.isEmpty || kind.isEmpty then none
  else
    let ns ← Namespace.ofShort? (String.ofList short)
    return ns.qualified ++ "::" ++ String.ofList kind

end DeclaredType

/-- Whether a canonical type needs the serverless transform. -/
def isServerless (canonical : String) : Bool :=
  "AWS::Serverless::".toList.isPrefixOf canonical.toList

end StackCompiler
