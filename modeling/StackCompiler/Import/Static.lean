import StackCompiler.Registry.Category
import StackCompiler.Rust.Expr

/-!
The declarations of generated source and the files over which they are spread.
-/
namespace StackCompiler.Import

inductive FileGroup where
  | category (category : Category)
  /-- Parameters, mappings and conditions. -/
  | params
  | outputs
deriving DecidableEq

namespace FileGroup

/-- The name of a group's file, without an ending. -/
def stem : FileGroup → String
  | category c => c.name
  | params => "params"
  | outputs => "outputs"

/-- All groups, in the order of their files. -/
def all : List FileGroup :=
  Category.all.map category ++ [params, outputs]

end FileGroup

/-- A declaration of a value that is made when it is first used. -/
structure Static where
  ident : String
  /-- The type as a path. -/
  type : String
  body : Rust.Expr
  docs : List String := []
  comment : Option String := none
  group : FileGroup
  /-- The module of the resource library in which the type lives. -/
  home : Option String := none
  /-- Whether this is an entry of the template; others hold parts of an entry. -/
  topLevel : Bool := true

/-- A declaration whose value is a struct. -/
def Static.ofStruct (ident type : String) (fields : List (String × Rust.Expr)) (group : FileGroup) :
    Static :=
  { ident := ident, type := type, body := .struct type fields, group := group }

end StackCompiler.Import
