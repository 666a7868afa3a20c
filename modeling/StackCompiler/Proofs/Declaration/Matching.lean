import StackCompiler.Declaration.Usage

/-!
Which usage counts for an attribute. The tiers of fitting usages are searched one after the
other (`IsBestFrom.search`), so what is found is the usage of the least tier that comes first
(`find?_eq_some_iff`).
-/
namespace StackCompiler.Usage

/-- A usage fits an attribute that is read at `path`: at this very path (1), at this path but for
    positions in lists (2), or at how this path ends but for positions (3). -/
def Fits (path : FieldPath) (usage : Usage) : (tier : Nat) → Prop
  | 1 => usage.path = path
  | 2 => usage.path.stripIndices = path.stripIndices
  | 3 => usage.path.stripIndices.segments ≠ [] ∧ usage.path.stripIndices.segments <:+ path.stripIndices.segments
  | _ => False

/-- The usage at `position` of a list is of the attribute `name`, which may be unknown, and fits `path`
    as those of `tier` do. -/
structure Candidate (usages : List Usage) (path : FieldPath) (name : String) (tier position : Nat) (usage : Usage) :
    Prop where
  listed : usages[position]? = some usage
  isOf : name = "" ∨ usage.name = name
  fits : usage.Fits path tier

/-- Of all usages of an attribute that fit a path, the one of the least tier, and of several the first. -/
def IsBest (usages : List Usage) (path : FieldPath) (name : String) (usage : Usage) : Prop :=
  ∃ tier position, Candidate usages path name tier position usage ∧
    ∀ tier' position' other, Candidate usages path name tier' position' other →
      tier < tier' ∨ tier = tier' ∧ position ≤ position'

section Search

variable {usages : List Usage} {path : FieldPath} {name : String} {usage : Usage}

theorem IsBest.unique {other : Usage} (best : IsBest usages path name usage) (too : IsBest usages path name other) :
    usage = other := by
  obtain ⟨tier, position, candidate, least⟩ := best
  obtain ⟨tier', position', candidate', least'⟩ := too
  have before := least _ _ _ candidate'
  have after := least' _ _ _ candidate
  obtain rfl : position = position' := by omega
  exact Option.some.inj (candidate.listed.symm.trans candidate'.listed)

theorem IsBest.mem (best : IsBest usages path name usage) : usage ∈ usages := by
  obtain ⟨_, position, candidate, -⟩ := best
  exact List.mem_of_getElem? candidate.listed

theorem Fits.bounds {tier : Nat} (fits : usage.Fits path tier) : 1 ≤ tier ∧ tier ≤ 3 := by
  unfold Fits at fits
  split at fits
  case h_4 => exact fits.elim
  all_goals decide

theorem candidate_iff {tier : Nat} {test : Usage → Bool} (tests : ∀ u : Usage, test u = true ↔ u.Fits path tier)
    (position : Nat) : Candidate usages path name tier position usage ↔
      usages[position]? = some usage ∧ ((name.isEmpty || usage.name == name) && test usage) = true := by
  rw [Bool.and_eq_true, tests, Bool.or_eq_true, String.isEmpty_iff, beq_iff_eq]
  exact ⟨fun c => ⟨c.listed, c.isOf, c.fits⟩, fun ⟨listed, isOf, fits⟩ => ⟨listed, isOf, fits⟩⟩

/-- What a search gives is the best of the usages of the tiers from `start` on. -/
def IsBestFrom (usages : List Usage) (path : FieldPath) (name : String) (start : Nat) : Option Usage → Prop
  | some usage => ∃ tier position, start ≤ tier ∧ Candidate usages path name tier position usage ∧
      ∀ tier' position' other, start ≤ tier' → Candidate usages path name tier' position' other →
        tier < tier' ∨ tier = tier' ∧ position ≤ position'
  | none => ∀ tier position other, start ≤ tier → ¬ Candidate usages path name tier position other

/-- A search of one tier comes before that of the later ones. -/
theorem IsBestFrom.search {start : Nat} {test : Usage → Bool} (tests : ∀ u : Usage, test u = true ↔ u.Fits path start)
    {later : Option Usage} (best : IsBestFrom usages path name (start + 1) later) :
    IsBestFrom usages path name start
      ((usages.filter fun u => name.isEmpty || u.name == name).find? test <|> later) := by
  cases found : (usages.filter fun u => name.isEmpty || u.name == name).find? test with
  | some usage =>
    rw [List.find?_filter, List.find?_eq_some_iff_getElem] at found
    obtain ⟨passes, position, inside, rfl, earlier⟩ := found
    have listed : usages[position]? = some usages[position] := List.getElem?_eq_getElem inside
    refine ⟨start, position, Nat.le_refl start, (candidate_iff tests position).mpr ⟨listed, by simpa using passes⟩, ?_⟩
    intro tier' position' other atLeast candidate
    rcases Nat.lt_or_eq_of_le atLeast with lower | rfl
    · exact .inl lower
    · refine .inr ⟨rfl, ?_⟩
      obtain ⟨listed', passes'⟩ := (candidate_iff tests position').mp candidate
      obtain ⟨inside', rfl⟩ := List.getElem?_eq_some_iff.mp listed'
      refine Nat.le_of_not_lt fun before => ?_
      have refused := earlier position' before
      simp_all
  | none =>
    have absent (position : Nat) (other : Usage) : ¬ Candidate usages path name start position other := by
      intro candidate
      obtain ⟨listed, passes⟩ := (candidate_iff tests position).mp candidate
      rw [List.find?_filter, List.find?_eq_none] at found
      exact found other (List.mem_of_getElem? listed) (by simpa using passes)
    have above {tier position : Nat} {other : Usage} (atLeast : start ≤ tier)
        (candidate : Candidate usages path name tier position other) : start + 1 ≤ tier := by
      rcases Nat.lt_or_eq_of_le atLeast with lower | rfl
      · exact lower
      · exact absurd candidate (absent _ _)
    cases later with
    | some usage =>
      obtain ⟨tier, position, atLeast, candidate, least⟩ := best
      exact ⟨tier, position, by omega, candidate, fun _ _ _ atLeast other => least _ _ _ (above atLeast other) other⟩
    | none => exact fun tier position other atLeast candidate => best _ _ _ (above atLeast candidate) candidate

theorem find?_isBestFrom (usages : List Usage) (path : FieldPath) (name : String) :
    IsBestFrom usages path name 1 (find? usages path name) := by
  have ending (u : Usage) : path.stripIndices.endsWith u.path.stripIndices = true ↔ u.Fits path 3 := by
    simp [FieldPath.endsWith, FieldPath.isRoot, Fits]
  have last : IsBestFrom usages path name 4 none := by
    intro tier position other atLeast candidate
    have bounds := candidate.fits.bounds
    omega
  have third := last.search ending
  rw [Option.orElse_eq_orElse, Option.orElse_eq_or, Option.or_none] at third
  exact .search (fun _ => beq_iff_eq) (.search (fun _ => beq_iff_eq) third)

theorem find?_eq_some_iff : find? usages path name = some usage ↔ IsBest usages path name usage := by
  have correct := find?_isBestFrom usages path name
  cases found : find? usages path name with
  | none =>
    rw [found] at correct
    constructor
    · intro same
      cases same
    · rintro ⟨tier, position, candidate, -⟩
      exact absurd candidate (correct _ _ _ candidate.fits.bounds.1)
  | some chosen =>
    rw [found] at correct
    obtain ⟨tier, position, -, candidate, least⟩ := correct
    have best : IsBest usages path name chosen :=
      ⟨tier, position, candidate, fun _ _ _ other => least _ _ _ other.fits.bounds.1 other⟩
    exact ⟨fun same => Option.some.inj same ▸ best, fun too => congrArg some (best.unique too)⟩

end Search

end StackCompiler.Usage
