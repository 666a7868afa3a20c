import StackCompiler.Members

/-!
TOML documents as trees. How a table came about decides what may be added to it later.
-/
namespace StackCompiler

namespace Toml

inductive Origin where
  /-- Through the header of a table below it. -/
  | implied
  /-- Through a header of its own. -/
  | header
  /-- Through a dotted key. -/
  | dotted
  /-- Between braces, where it is complete. -/
  | inline
deriving DecidableEq

end Toml

inductive Toml where
  | text (s : String)
  /-- A number, a truth value or a time. -/
  | scalar
  | list (items : List Toml)
  | table (origin : Toml.Origin) (entries : List (String × Toml))
  /-- Tables that have the same header, last one first. -/
  | tables (reversed : List (List (String × Toml)))
deriving Inhabited

namespace Toml

/-- The entries of a table. -/
abbrev Entries := List (String × Toml)

/-- Adds a value under a dotted key, whose last part must be new. -/
def assign (value : Toml) : (keys : List String) → Entries → Option Entries
  | [], _ => none
  | [key], entries => if hasMember key entries then none else some (putMember key value entries)
  | key :: rest, entries =>
    match entries.lookup key with
    | none => (assign value rest []).map fun inner => putMember key (.table .dotted inner) entries
    | some (.table .dotted inner) =>
      (assign value rest inner).map fun inner => putMember key (.table .dotted inner) entries
    | some _ => none

/-- Changes the entries of the table that a header has opened. -/
def changeAt (change : Entries → Option Entries) : (keys : List String) → Entries → Option Entries
  | [], entries => change entries
  | key :: rest, entries =>
    match entries.lookup key with
    | some (.table origin inner) =>
      (changeAt change rest inner).map fun inner => putMember key (.table origin inner) entries
    | some (.tables (last :: others)) =>
      (changeAt change rest last).map fun last => putMember key (.tables (last :: others)) entries
    | _ => none

/-- Opens a table with a header. Tables on the way come about if they are not there; the last one
    must be new but for tables below it. -/
def openTable : (keys : List String) → Entries → Option Entries
  | [], _ => none
  | [key], entries =>
    match entries.lookup key with
    | none => some (putMember key (.table .header []) entries)
    | some (.table .implied inner) => some (putMember key (.table .header inner) entries)
    | some _ => none
  | key :: rest, entries =>
    match entries.lookup key with
    | none => (openTable rest []).map fun inner => putMember key (.table .implied inner) entries
    | some (.table .inline _) => none
    | some (.table origin inner) =>
      (openTable rest inner).map fun inner => putMember key (.table origin inner) entries
    | some (.tables (last :: others)) =>
      (openTable rest last).map fun last => putMember key (.tables (last :: others)) entries
    | some _ => none

/-- Opens one more of the tables that share a header. -/
def openNext : (keys : List String) → Entries → Option Entries
  | [], _ => none
  | [key], entries =>
    match entries.lookup key with
    | none => some (putMember key (.tables [[]]) entries)
    | some (.tables reversed) => some (putMember key (.tables ([] :: reversed)) entries)
    | some _ => none
  | key :: rest, entries =>
    match entries.lookup key with
    | none => (openNext rest []).map fun inner => putMember key (.table .implied inner) entries
    | some (.table .inline _) => none
    | some (.table origin inner) =>
      (openNext rest inner).map fun inner => putMember key (.table origin inner) entries
    | some (.tables (last :: others)) =>
      (openNext rest last).map fun last => putMember key (.tables (last :: others)) entries
    | some _ => none

/-- The items of a list, which may also be tables that share a header. -/
def items? : Toml → Option (List Toml)
  | .list items => some items
  | .tables reversed => some (reversed.reverse.map (.table .header))
  | _ => none

def entries? : Toml → Option Entries
  | .table _ entries => some entries
  | _ => none

end Toml

end StackCompiler
