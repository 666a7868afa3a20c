/-!
Identifiers that are taken. A name that is derived gets a number where it would
clash.
-/
namespace StackCompiler.Rust

structure NameTable where
  taken : List String
deriving DecidableEq

namespace NameTable

def empty : NameTable := ⟨[]⟩

def contains (table : NameTable) (name : String) : Bool :=
  table.taken.contains name

/-- Takes `name`; the answer is whether it was free. -/
def claim (table : NameTable) (name : String) : Bool × NameTable :=
  if table.contains name then (false, table) else (true, ⟨name :: table.taken⟩)

/-- `base` with the least number from `n` on that makes it free, among `tries` numbers. -/
def numbered (table : NameTable) (base : String) : (tries n : Nat) → String
  | 0, n => base ++ toString n
  | tries + 1, n =>
    let candidate := base ++ toString n
    if table.contains candidate then numbered table base tries (n + 1) else candidate

/-- Takes `base`, or `base` with the least number from two on that is free. No more numbers can be
    taken than there are names in the table. -/
def derive (table : NameTable) (base : String) : String × NameTable :=
  let name := if table.contains base then table.numbered base table.taken.length 2 else base
  (name, ⟨name :: table.taken⟩)

end NameTable

end StackCompiler.Rust
