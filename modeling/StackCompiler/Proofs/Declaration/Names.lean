import Mathlib.Data.List.Nodup
import StackCompiler.Declaration.Build

/-!
Logical names. The check of names passes exactly if every name is one of ASCII letters and
digits and no two declarations, of whatever sections, share one (`WellNamed`).
-/
namespace StackCompiler

/-- ASCII letters and digits, and at least one. -/
def IsLogicalName (name : String) : Prop :=
  name ≠ "" ∧ ∀ c ∈ name.toList, Text.isAsciiAlphanumeric c = true

theorem nameProblem?_eq_none_iff (name : String) : nameProblem? name = none ↔ IsLogicalName name := by
  unfold nameProblem? IsLogicalName
  by_cases empty : name = ""
  · simp [empty]
  · simp [empty, List.all_eq_true]

namespace Declarations

/-- The names of all declarations, section by section. -/
def logicalNames (d : Declarations) : List String :=
  d.resources.map (·.name) ++ d.parameters.map (·.name) ++ d.mappings.map (·.name) ++ d.conditions.map (·.name)
    ++ d.outputs.map (·.name)

/-- Names are valid, and each is used once over all sections. -/
structure WellNamed (d : Declarations) : Prop where
  valid : ∀ name ∈ d.logicalNames, IsLogicalName name
  once : d.logicalNames.Nodup

theorem names_map (d : Declarations) : d.names.map (·.2.1) = d.logicalNames := by
  simp [names, logicalNames, Function.comp_def]

/-- The check passes if the names are valid, differ, and differ from those that were seen. -/
theorem checkNamesFrom_eq_ok_iff (seen : List (String × String)) (names : List (String × String × Option Location)) :
    checkNamesFrom seen names = .ok () ↔ (∀ name ∈ names.map (·.2.1), IsLogicalName name) ∧
      (names.map (·.2.1)).Nodup ∧ ∀ name ∈ names.map (·.2.1), seen.lookup name = none := by
  induction names generalizing seen with
  | nil => simp [checkNamesFrom, pure, Except.pure]
  | cons entry rest ih =>
    obtain ⟨sectionName, name, location⟩ := entry
    rw [checkNamesFrom, List.map_cons, List.nodup_cons, List.forall_mem_cons, List.forall_mem_cons,
      ← nameProblem?_eq_none_iff]
    cases nameProblem? name with
    | some problem => simp [throw, throwThe, MonadExceptOf.throw]
    | none =>
      cases seen.lookup name with
      | some first => simp [throw, throwThe, MonadExceptOf.throw]
      | none =>
        -- A name that comes later was not seen before exactly if it is neither this one nor an older one.
        have apart (other : String) : ((name, sectionName) :: seen).lookup other = none ↔
            other ≠ name ∧ seen.lookup other = none := by
          by_cases same : other = name
          · simp [same]
          · have different : (other == name) = false := by simpa using same
            simp only [List.lookup_cons, different, ne_eq, same, not_false_eq_true, true_and]
        simp only [ih, apart, true_and]
        constructor
        · rintro ⟨valid, once, new⟩
          exact ⟨valid, ⟨fun again => (new name again).1 rfl, once⟩, fun other member => (new other member).2⟩
        · rintro ⟨valid, ⟨new, once⟩, unseen⟩
          exact ⟨valid, once, fun other member => ⟨fun same => new (same ▸ member), unseen other member⟩⟩

theorem checkNames_eq_ok_iff (d : Declarations) : d.checkNames = .ok () ↔ d.WellNamed := by
  rw [checkNames, checkNamesFrom_eq_ok_iff, names_map]
  constructor
  · rintro ⟨valid, once, -⟩
    exact ⟨valid, once⟩
  · rintro ⟨valid, once⟩
    exact ⟨valid, once, fun _ _ => rfl⟩

theorem WellNamed.resources_nodup {d : Declarations} (named : d.WellNamed) : (d.resources.map (·.name)).Nodup := by
  have once := named.once
  simp only [logicalNames, List.nodup_append] at once
  exact once.1.1.1.1

end Declarations

end StackCompiler
