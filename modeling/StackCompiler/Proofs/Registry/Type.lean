import StackCompiler.Proofs.Text.Bytes
import StackCompiler.Proofs.Text.Cuts
import StackCompiler.Registry.Type

/-!
Declared types and their canonical forms. A declared type is cut at its last dot, and what
stands before the dot names a namespace (`canonical?_eq_some_iff`). The names of namespaces
have no colons, so the canonical form tells which namespace a type is of, and the types that
are serverless are those of one namespace (`isServerless_canonical_iff`).
-/
namespace StackCompiler

theorem Text.colon_not_mem {s : String} (plain : 58 ∉ bytes s) : ':' ∉ s.toList := by
  intro member
  apply plain
  rw [bytes_eq_flatMap, List.mem_flatMap]
  exact ⟨':', member, by decide⟩

/-! ### Canonical forms -/

/-- A type is declared in a namespace: `short` stands before its last dot, in whatever case. -/
def DeclaredIn (short declared : String) : Prop :=
  ∃ start kind, declared = start ++ "." ++ kind ∧ '.' ∉ kind.toList ∧ Text.asciiLower start = short

namespace DeclaredType

theorem canonical?_eq_some_iff (declared canonical : String) :
    canonical? declared = some canonical ↔ ∃ start kind ns, declared = start ++ "." ++ kind ∧ '.' ∉ kind.toList ∧
      start ≠ "" ∧ kind ≠ "" ∧ Namespace.ofShort? start = some ns ∧ canonical = ns.qualified ++ "::" ++ kind := by
  simp only [canonical?, Option.bind_eq_bind, Option.bind_eq_some_iff, Prod.exists, Text.splitLast?_eq_some_iff]
  constructor
  · rintro ⟨start, kind, ⟨split, last⟩, rest⟩
    split at rest
    · cases rest
    · rename_i filled
      simp only [Option.bind_eq_some_iff] at rest
      obtain ⟨ns, found, same⟩ := rest
      obtain ⟨startFilled, kindFilled⟩ : start ≠ [] ∧ kind ≠ [] := by simpa using filled
      refine ⟨String.ofList start, String.ofList kind, ns, ?_, by simpa using last, by simpa using startFilled,
        by simpa using kindFilled, found, ?_⟩
      · exact String.toList_inj.mp (by simp [split])
      · simpa [eq_comm] using same
  · rintro ⟨start, kind, ns, rfl, last, startFilled, kindFilled, found, rfl⟩
    refine ⟨start.toList, kind.toList, ⟨by simp, last⟩, ?_⟩
    have filled : (start.toList.isEmpty || kind.toList.isEmpty) = false := by simp [startFilled, kindFilled]
    rw [filled]
    simp [found]

/-- A declared type has one start and one kind. -/
theorem cut_unique {start kind other rest : String} (last : '.' ∉ kind.toList) (lastToo : '.' ∉ rest.toList)
    (same : start ++ "." ++ kind = other ++ "." ++ rest) : start = other ∧ kind = rest := by
  have aligned : start.toList ++ '.' :: kind.toList = other.toList ++ '.' :: rest.toList := by
    simpa using congrArg String.toList same
  exact (Text.last_mark_unique last lastToo aligned).imp String.toList_inj.mp String.toList_inj.mp

end DeclaredType

namespace Namespace

/-- Neither the owners nor the names of namespaces have colons. -/
theorem plain_of_mem : ∀ ns ∈ all, 58 ∉ Text.bytes ns.owner ∧ 58 ∉ Text.bytes ns.name := by decide +kernel

theorem short_eq_serverless_iff : ∀ ns ∈ all, ns.short = "serverless" ↔ ns.owner = "AWS" ∧ ns.name = "Serverless" := by
  decide +kernel

end Namespace

theorem isServerless_qualified_iff {ns : Namespace} (known : ns ∈ Namespace.all) (kind : String) :
    isServerless (ns.qualified ++ "::" ++ kind) = true ↔ ns.short = "serverless" := by
  obtain ⟨ownerPlain, namePlain⟩ := Namespace.plain_of_mem ns known
  rw [Namespace.short_eq_serverless_iff ns known, isServerless, List.isPrefixOf_iff_prefix]
  constructor
  · rintro ⟨rest, same⟩
    have aligned : "AWS".toList ++ ':' :: (':' :: ("Serverless".toList ++ ':' :: (':' :: rest))) =
        ns.owner.toList ++ ':' :: (':' :: (ns.name.toList ++ ':' :: (':' :: kind.toList))) := by
      simpa [Namespace.qualified] using same
    have plain : ':' ∉ "AWS".toList ∧ ':' ∉ "Serverless".toList := by decide
    obtain ⟨owner, later⟩ := Text.first_mark_unique plain.1 (Text.colon_not_mem ownerPlain) aligned
    obtain ⟨name, -⟩ := Text.first_mark_unique plain.2 (Text.colon_not_mem namePlain) (List.cons.inj later).2
    exact ⟨(String.toList_inj.mp owner).symm, (String.toList_inj.mp name).symm⟩
  · rintro ⟨owner, name⟩
    exact ⟨kind.toList, by simp [Namespace.qualified, owner, name]⟩

/-- The canonical form of a type is serverless exactly if the type is declared in that namespace. -/
theorem isServerless_canonical_iff {declared canonical : String}
    (resolved : DeclaredType.canonical? declared = some canonical) :
    isServerless canonical = true ↔ DeclaredIn "serverless" declared := by
  obtain ⟨start, kind, ns, rfl, last, -, -, found, rfl⟩ := (DeclaredType.canonical?_eq_some_iff _ _).mp resolved
  have known : ns ∈ Namespace.all := List.mem_of_find?_eq_some found
  have short : ns.short = Text.asciiLower start := by simpa using List.find?_some found
  rw [isServerless_qualified_iff known, short]
  constructor
  · exact fun lower => ⟨start, kind, rfl, last, lower⟩
  · rintro ⟨other, rest, same, lastToo, lower⟩
    exact (DeclaredType.cut_unique last lastToo same).1 ▸ lower

end StackCompiler
