import StackCompiler.Proofs.Declaration.Visits
import StackCompiler.Proofs.Distinct

/-!
The usages that count for a declaration. They are what the visits of a search find, each said once
and by origin (`resolve_eq`). The search starts with the declaration itself, and nothing that it
finds later is of that origin, so the declaration's own usages come first (`own_first`).
-/
namespace StackCompiler

/-- What a usage says, wherever it came from. -/
def Usage.content (u : Usage) : FieldPath × String × String := (u.path, u.resource, u.name)

theorem Usage.same_iff (u v : Usage) : u.same v = true ↔ u.content = v.content := by
  simp [same, content, and_assoc]

namespace Declarations

/-- Usages by origin, and in their order where the origin is the same. -/
def byOrigin (usages : List Usage) : List Usage :=
  [Origin.own, .forwarded, .transitive].flatMap fun origin => usages.filter (·.origin == origin)

theorem byOrigin_eq (usages : List Usage) : byOrigin usages = usages.filter (·.origin == .own)
    ++ usages.filter (·.origin == .forwarded) ++ usages.filter (·.origin == .transitive) := by
  simp [byOrigin]

theorem byOrigin_perm (usages : List Usage) : (byOrigin usages).Perm usages := by
  induction usages with
  | nil => exact .refl _
  | cons u rest ih =>
    rw [byOrigin_eq] at ih ⊢
    cases origin : u.origin with
    | own => simpa [List.filter_cons, origin] using ih.cons u
    | forwarded =>
      simp only [List.filter_cons, origin, beq_self_eq_true, ↓reduceIte, reduceCtorEq, beq_iff_eq, List.append_assoc,
        List.cons_append] at ih ⊢
      exact List.perm_middle.trans (ih.cons u)
    | transitive =>
      simp only [List.filter_cons, origin, beq_self_eq_true, ↓reduceIte, reduceCtorEq, beq_iff_eq] at ih ⊢
      exact List.perm_middle.trans (ih.cons u)

/-- What is found, said once and by origin. -/
def summary (usages : List Usage) : List Usage := byOrigin (keepFirst Usage.same usages)

variable {d : Declarations} {name : String} {visits : List Visit} {usages : List Usage} {u : Usage}

theorem mem_of_mem_summary (member : u ∈ summary usages) : u ∈ usages :=
  mem_of_mem_keepFirst ((byOrigin_perm _).mem_iff.mp member)

theorem exists_mem_summary (member : u ∈ usages) : ∃ w ∈ summary usages, w.content = u.content := by
  obtain ⟨w, kept, eq⟩ := exists_mem_keepFirst Usage.content Usage.same_iff member
  exact ⟨w, (byOrigin_perm _).mem_iff.mpr kept, eq⟩

theorem nodup_summary (usages : List Usage) : ((summary usages).map Usage.content).Nodup :=
  ((byOrigin_perm _).map _).nodup_iff.mpr (nodup_keys_keepFirst Usage.content Usage.same_iff usages)

/-- The usages recorded with a declaration, at the paths recorded there. -/
def ownUsages (d : Declarations) (name : String) : List Usage :=
  (d.usagesOf name).map fun u => ⟨u.path, u.resource, u.name, .own⟩

theorem usagesAt_start (d : Declarations) (name : String) : d.usagesAt (.start name) = d.ownUsages name :=
  rfl

/-- What counts for a declaration is what the search from it finds. -/
theorem resolve_eq (d : Declarations) (name : String) :
    ∃ visits, Explores d [.start name] [] visits ∧ d.resolve name = summary (visits.flatMap d.usagesAt) := by
  obtain ⟨visits, explores, found⟩ := collect_start d name
  refine ⟨visits, explores, ?_⟩
  rw [← found]
  rfl

/-- A search starts with the declaration itself. -/
theorem Explores.eq_start_cons (explores : Explores d [.start name] [] visits) :
    ∃ later, visits = .start name :: later ∧ ∀ v ∈ later, v.origin ≠ .own := by
  cases explores with
  | again old _ => cases old
  | @visit _ _ _ inner later _ inside rest =>
    cases rest
    refine ⟨inner, by rw [List.append_nil], inside.all (fun v => origin_ne_own_of_mem) fun v _ w => origin_ne_own_of_mem⟩

theorem origin_of_mem_usagesAt {v : Visit} (member : u ∈ d.usagesAt v) : u.origin = v.origin := by
  obtain ⟨_, -, rfl⟩ := List.mem_map.mp member
  rfl

/-- The own usages of a declaration come first, and others of their origin do not follow. -/
theorem own_first (explores : Explores d [.start name] [] visits) :
    (keepFirst Usage.same (visits.flatMap d.usagesAt)).filter (·.origin == .own) =
      keepFirst Usage.same (d.ownUsages name) := by
  obtain ⟨later, rfl, others⟩ := explores.eq_start_cons
  rw [List.flatMap_cons, usagesAt_start, keepFirst_append, List.filter_append]
  have own : (keepFirst Usage.same (d.ownUsages name)).filter (·.origin == .own) =
      keepFirst Usage.same (d.ownUsages name) := by
    refine List.filter_eq_self.mpr fun u kept => ?_
    obtain ⟨_, -, rfl⟩ := List.mem_map.mp (mem_of_mem_keepFirst kept)
    rfl
  have rest : ((keepFirst Usage.same (later.flatMap d.usagesAt)).filter fun u =>
      (d.ownUsages name).all (! Usage.same · u)).filter (·.origin == .own) = [] := by
    refine List.filter_eq_nil_iff.mpr fun u kept same => ?_
    obtain ⟨v, visited, found⟩ := List.mem_flatMap.mp (mem_of_mem_keepFirst (List.mem_of_mem_filter kept))
    exact others v visited ((origin_of_mem_usagesAt found).symm.trans (beq_iff_eq.mp same))
  rw [own, rest, List.append_nil]

/-- `usages` are what a search from `name` finds that makes the visits `visits`. -/
structure IsResolution (d : Declarations) (name : String) (visits : List Visit) (usages : List Usage) : Prop where
  /-- The search ends with these visits, whether or not links lead in circles. -/
  ends : Explores d [.start name] [] visits
  /-- No declaration is visited twice, so that its usages stand at one place. -/
  once : (visits.map (·.name)).Nodup
  reached : ∀ other, (∃ v ∈ visits, v.name = other) ↔ d.Reaches name other
  /-- Each visit is at the place to which the fields of some way lead. -/
  led : ∀ v ∈ visits, Relation.ReflTransGen (fun v w => w ∈ d.visitsAfter v) (.start name) v
  complete : ∀ v ∈ visits, ∀ u ∈ d.usagesAt v, ∃ w ∈ usages, w.content = u.content
  sound : ∀ u ∈ usages, ∃ v ∈ visits, u ∈ d.usagesAt v
  distinct : (usages.map Usage.content).Nodup
  ordered : ∃ forwarded transitive, usages = keepFirst Usage.same (d.ownUsages name) ++ forwarded ++ transitive ∧
    (∀ u ∈ forwarded, u.origin = .forwarded) ∧ ∀ u ∈ transitive, u.origin = .transitive

/-- For every declaration, also where links lead in circles, the search for its usages ends. Exactly the
    declarations that it leads to give their usages, each all of them at one place; nothing is said
    twice, and its own usages come first, then those through fields, then those of dependencies. -/
theorem resolve_isResolution (d : Declarations) (name : String) : ∃ visits, IsResolution d name visits (d.resolve name) := by
  obtain ⟨visits, explores, eq⟩ := resolve_eq d name
  refine ⟨visits, explores, ?once, fun _ => explores.exact, ?led, ?complete, ?sound, ?distinct, ?ordered⟩
  case once =>
    have seen := explores.nodup List.nodup_nil
    rwa [seenAfter, List.append_nil, List.nodup_reverse] at seen
  case led => exact explores.all (List.forall_mem_singleton.mpr .refl) fun v way w next => way.tail next
  case complete =>
    intro v visited u found
    rw [eq]
    exact exists_mem_summary (List.mem_flatMap.mpr ⟨v, visited, found⟩)
  case sound =>
    intro u member
    rw [eq] at member
    exact List.mem_flatMap.mp (mem_of_mem_summary member)
  case distinct => exact eq ▸ nodup_summary _
  case ordered =>
    have blocks := byOrigin_eq (keepFirst Usage.same (visits.flatMap d.usagesAt))
    rw [own_first explores] at blocks
    exact ⟨_, _, eq.trans blocks, fun u member => beq_iff_eq.mp (List.mem_filter.mp member).2,
      fun u member => beq_iff_eq.mp (List.mem_filter.mp member).2⟩

end Declarations

end StackCompiler
