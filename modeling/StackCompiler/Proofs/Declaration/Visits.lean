import Mathlib.Data.List.Nodup
import Mathlib.Logic.Relation
import StackCompiler.Declaration.Usage
import StackCompiler.Proofs.Members

/-!
The search for usages as the visits that it makes. A search without a bound on its depth goes
through what is pending and visits what it has not seen, each with all that it leads to before the
next (`Explores`). The bound never cuts the search short (`collect_explores`), since every visit but
the first takes a declaration away to which a link leads. A search visits no declaration twice
(`Explores.nodup`) and leaves nothing out that a visited one leads to (`Explores.covered`).
-/
namespace StackCompiler.Declarations

/-- A declaration that a search comes to, where its usages stand, and how they come to count. -/
structure Visit where
  name : String
  lead : FieldPath
  origin : Origin

/-- The visit with which a search starts. -/
def Visit.start (name : String) : Visit := ⟨name, .root, .own⟩

/-- The usages that a visit finds. -/
def usagesAt (d : Declarations) (v : Visit) : List Usage :=
  (d.usagesOf v.name).map fun u => ⟨v.lead.join u.path, u.resource, u.name, v.origin⟩

/-- What a visit leads on to: through its fields first, and then to its dependencies. -/
def visitsAfter (d : Declarations) (v : Visit) : List Visit :=
  (d.fieldsOf v.name).map (fun e => ⟨e.2, v.lead.join (.parse e.1), v.origin.passedOn⟩)
    ++ (d.dependenciesOf v.name).map (⟨·, .root, .transitive⟩)

/-- A declaration uses the value of another in a field, or depends on it. -/
def LinksTo (d : Declarations) (name other : String) : Prop :=
  other ∈ (d.fieldsOf name).map (·.2) ∨ other ∈ d.dependenciesOf name

def Reaches (d : Declarations) : String → String → Prop := Relation.ReflTransGen d.LinksTo

/-- The names that a search has seen after some visits. -/
def seenAfter (visits : List Visit) (seen : List String) : List String :=
  (visits.map (·.name)).reverse ++ seen

/-- A search through what is pending makes the visits `visits`. -/
inductive Explores (d : Declarations) : (pending : List Visit) → (seen : List String) → (visits : List Visit) → Prop
  | nil {seen : List String} : Explores d [] seen []
  | again {v : Visit} {pending : List Visit} {seen : List String} {visits : List Visit} (old : v.name ∈ seen)
      (rest : Explores d pending seen visits) : Explores d (v :: pending) seen visits
  | visit {v : Visit} {pending : List Visit} {seen : List String} {inner later : List Visit} (new : v.name ∉ seen)
      (inside : Explores d (d.visitsAfter v) (v.name :: seen) inner)
      (rest : Explores d pending (seenAfter (v :: inner) seen) later) :
      Explores d (v :: pending) seen (v :: (inner ++ later))

variable {d : Declarations} {v w : Visit} {name other : String} {pending more visits others : List Visit}
  {seen : List String}

/-! ### Links -/

theorem linksTo_iff (v : Visit) (other : String) : d.LinksTo v.name other ↔ ∃ w ∈ d.visitsAfter v, w.name = other := by
  constructor
  · rintro (used | needed)
    · obtain ⟨e, field, rfl⟩ := List.mem_map.mp used
      exact ⟨_, List.mem_append_left _ (List.mem_map_of_mem field), rfl⟩
    · exact ⟨_, List.mem_append_right _ (List.mem_map_of_mem needed), rfl⟩
  · rintro ⟨w, next, rfl⟩
    rcases List.mem_append.mp next with used | needed
    · obtain ⟨e, field, rfl⟩ := List.mem_map.mp used
      exact .inl (List.mem_map_of_mem field)
    · obtain ⟨dependency, listed, rfl⟩ := List.mem_map.mp needed
      exact .inr listed

theorem linksTo_of_mem (next : w ∈ d.visitsAfter v) : d.LinksTo v.name w.name :=
  (linksTo_iff v w.name).mpr ⟨w, next, rfl⟩

/-- Only the visit with which a search starts is at a declaration's own usages. -/
theorem origin_ne_own_of_mem (next : w ∈ d.visitsAfter v) : w.origin ≠ .own := by
  have passedOn : v.origin.passedOn ≠ .own := by cases v.origin <;> decide
  rcases List.mem_append.mp next with used | needed
  · obtain ⟨e, -, rfl⟩ := List.mem_map.mp used
    exact passedOn
  · obtain ⟨dependency, -, rfl⟩ := List.mem_map.mp needed
    simp

/-- Links are recorded with a forwarding or with a resource. -/
theorem exists_of_linksTo (link : d.LinksTo name other) :
    (∃ e ∈ d.forwardings, e.1 = name ∧ ∃ f ∈ e.2.fields, f.2 = other) ∨
      ∃ r ∈ d.resources, r.name = name ∧ other ∈ r.dependencies := by
  rcases link with used | needed
  · obtain ⟨f, field, rfl⟩ := List.mem_map.mp used
    unfold fieldsOf at field
    cases found : d.forwardings.lookup name with
    | none => simp [found] at field
    | some forwarding =>
      rw [found] at field
      exact .inl ⟨_, mem_of_lookup found, rfl, f, field, rfl⟩
  · obtain ⟨r, inside, dependency⟩ := List.mem_flatMap.mp needed
    obtain ⟨declared, same⟩ := List.mem_filter.mp inside
    exact .inr ⟨r, declared, beq_iff_eq.mp same, dependency⟩

/-- The declarations to which links lead. -/
def linkTargets (d : Declarations) : List String :=
  (d.forwardings.flatMap (·.2.fields)).map (·.2) ++ d.resources.flatMap (·.dependencies)

theorem linkTargets_length (d : Declarations) : d.linkTargets.length = d.linkCount := by
  simp [linkTargets, linkCount]

theorem mem_linkTargets (link : d.LinksTo name other) : other ∈ d.linkTargets := by
  rcases exists_of_linksTo link with ⟨e, member, -, f, field, rfl⟩ | ⟨r, declared, -, dependency⟩
  · exact List.mem_append_left _ (List.mem_map_of_mem (List.mem_flatMap.mpr ⟨e, member, field⟩))
  · exact List.mem_append_right _ (List.mem_flatMap.mpr ⟨r, declared, dependency⟩)

/-! ### What has been seen -/

@[simp] theorem mem_seenAfter : name ∈ seenAfter visits seen ↔ (∃ v ∈ visits, v.name = name) ∨ name ∈ seen := by
  simp [seenAfter]

theorem seenAfter_append (visits others : List Visit) (seen : List String) :
    seenAfter (visits ++ others) seen = seenAfter others (seenAfter visits seen) := by
  simp [seenAfter]

theorem seenAfter_cons (v : Visit) (visits : List Visit) (seen : List String) :
    seenAfter (v :: visits) seen = seenAfter visits (v.name :: seen) := by
  simp [seenAfter]

theorem subset_seenAfter (visits : List Visit) (seen : List String) : seen ⊆ seenAfter visits seen :=
  List.subset_append_right _ _

/-- The links that lead to declarations not seen yet. -/
def unseen (d : Declarations) (seen : List String) : List String := d.linkTargets.filter (· ∉ seen)

theorem unseen_length_le {more : List String} (subset : seen ⊆ more) : (d.unseen more).length ≤ (d.unseen seen).length := by
  refine (List.monotone_filter_right _ fun name new => ?_).length_le
  simp only [decide_eq_true_eq] at new ⊢
  exact fun old => new (subset old)

theorem unseen_length_lt (target : name ∈ d.linkTargets) (new : name ∉ seen) :
    (d.unseen (name :: seen)).length < (d.unseen seen).length := by
  have fewer : d.unseen (name :: seen) = (d.unseen seen).filter (· ≠ name) := by
    rw [unseen, unseen, List.filter_filter]
    exact List.filter_congr fun other _ => by simp
  rw [fewer]
  refine List.length_filter_lt_length_iff_exists.mpr ⟨name, List.mem_filter.mpr ⟨target, by simpa using new⟩, by simp⟩

/-! ### What searches do -/

namespace Explores

theorem append (first : Explores d pending seen visits) (second : Explores d more (seenAfter visits seen) others) :
    Explores d (pending ++ more) seen (visits ++ others) := by
  induction first with
  | nil => exact second
  | again old _ ih => exact .again old (ih second)
  | @visit v pending seen inner later new inside _ _ ih =>
    rw [← List.cons_append, seenAfter_append] at second
    rw [List.cons_append, List.cons_append, List.append_assoc]
    exact .visit new inside (ih second)

/-- What holds of all that is pending, and is handed on to what a visit leads to, holds of all visits. -/
theorem all {P : Visit → Prop} (explores : Explores d pending seen visits) (start : ∀ v ∈ pending, P v)
    (step : ∀ v, P v → ∀ w ∈ d.visitsAfter v, P w) : ∀ v ∈ visits, P v := by
  induction explores with
  | nil => exact List.forall_mem_nil _
  | again _ _ ih => exact ih (List.forall_mem_cons.mp start).2
  | @visit v _ _ _ _ _ _ _ inner later =>
    rw [List.forall_mem_cons] at start
    rw [List.forall_mem_cons, List.forall_mem_append]
    exact ⟨start.1, inner (step v start.1), later start.2⟩

/-- What was seen before is not visited. -/
theorem fresh (explores : Explores d pending seen visits) : ∀ v ∈ visits, v.name ∉ seen := by
  induction explores with
  | nil => exact List.forall_mem_nil _
  | again _ _ ih => exact ih
  | @visit v _ seen inside _ new _ _ inner later =>
    rw [List.forall_mem_cons, List.forall_mem_append]
    refine ⟨new, fun w member old => ?_, fun w member old => ?_⟩
    · exact inner w member (List.mem_cons_of_mem _ old)
    · exact later w member (subset_seenAfter _ _ old)

/-- No declaration is visited twice. -/
theorem nodup (explores : Explores d pending seen visits) (distinct : seen.Nodup) : (seenAfter visits seen).Nodup := by
  induction explores with
  | nil => exact distinct
  | again _ _ ih => exact ih distinct
  | @visit v _ seen inside _ new _ _ inner later =>
    rw [← List.cons_append, seenAfter_append]
    refine later ?_
    rw [seenAfter_cons]
    exact inner (List.nodup_cons.mpr ⟨new, distinct⟩)

/-- All that was pending is seen in the end. -/
theorem pending_seen (explores : Explores d pending seen visits) : ∀ v ∈ pending, v.name ∈ seenAfter visits seen := by
  induction explores with
  | nil => exact List.forall_mem_nil _
  | again old _ ih => exact List.forall_mem_cons.mpr ⟨subset_seenAfter _ _ old, ih⟩
  | @visit v _ _ _ _ _ _ _ _ later =>
    refine List.forall_mem_cons.mpr ⟨mem_seenAfter.mpr (.inl ⟨v, List.mem_cons_self, rfl⟩), ?_⟩
    rwa [← List.cons_append, seenAfter_append]

/-- All that a visited declaration links to is seen in the end. -/
theorem covered (explores : Explores d pending seen visits) :
    ∀ v ∈ visits, ∀ other, d.LinksTo v.name other → other ∈ seenAfter visits seen := by
  induction explores with
  | nil => exact List.forall_mem_nil _
  | again _ _ ih => exact ih
  | @visit v _ seen inside rest _ explored _ inner later =>
    have within : seenAfter inside (v.name :: seen) ⊆ seenAfter (v :: (inside ++ rest)) seen := by
      rw [← List.cons_append, seenAfter_append, seenAfter_cons]
      exact subset_seenAfter _ _
    rw [List.forall_mem_cons, List.forall_mem_append]
    refine ⟨fun other link => ?_, fun w member other link => within (inner w member other link), ?_⟩
    · obtain ⟨w, next, rfl⟩ := (linksTo_iff v other).mp link
      exact within (explored.pending_seen w next)
    · rwa [← List.cons_append, seenAfter_append]

end Explores

/-- Names that have a name and, with each that it leads to, all to which that one links, have all that
    it leads to. -/
theorem mem_of_reaches {names : List String} (first : name ∈ names)
    (closed : ∀ x ∈ names, d.Reaches name x → ∀ y, d.LinksTo x y → y ∈ names) (path : d.Reaches name other) :
    other ∈ names := by
  induction path with
  | refl => exact first
  | tail before link ih => exact closed _ ih before _ link

/-- A search from one declaration visits exactly those that it leads to. -/
theorem Explores.exact (explores : Explores d [.start name] [] visits) :
    (∃ v ∈ visits, v.name = other) ↔ d.Reaches name other := by
  constructor
  · rintro ⟨v, visited, rfl⟩
    have reached : ∀ v ∈ visits, d.Reaches name v.name :=
      explores.all (List.forall_mem_singleton.mpr .refl) fun v path w next => path.tail (linksTo_of_mem next)
    exact reached v visited
  · intro path
    have seen : other ∈ seenAfter visits [] := by
      refine mem_of_reaches (explores.pending_seen _ (List.mem_singleton.mpr rfl)) (fun x old _ y link => ?_) path
      obtain ⟨v, visited, rfl⟩ := (mem_seenAfter.mp old).resolve_right List.not_mem_nil
      exact explores.covered v visited y link
    exact (mem_seenAfter.mp seen).resolve_right List.not_mem_nil

/-! ### The search with a bound -/

/-- What has been found after some visits. -/
def Found.after (d : Declarations) (found : Found) (visits : List Visit) : Found :=
  ⟨seenAfter visits found.visited, found.usages ++ visits.flatMap d.usagesAt⟩

@[simp] theorem Found.after_nil (found : Found) : found.after d [] = found := by
  simp [after, seenAfter]

theorem Found.after_append (found : Found) (visits others : List Visit) :
    found.after d (visits ++ others) = (found.after d visits).after d others := by
  simp [after, seenAfter_append]

theorem collect_of_seen {found : Found} (old : v.name ∈ found.visited) (depth : Nat) :
    ∃ visits, Explores d [v] found.visited visits ∧
      d.collect depth v.lead v.origin v.name found = found.after d visits := by
  refine ⟨[], .again old .nil, ?_⟩
  rw [Found.after_nil]
  cases depth with
  | zero => rfl
  | succ depth => rw [collect, if_pos (List.contains_iff_mem.mpr old)]

theorem collect_of_new {found : Found} (new : v.name ∉ found.visited) (depth : Nat) :
    d.collect (depth + 1) v.lead v.origin v.name found =
      (d.visitsAfter v).foldl (fun found w => d.collect depth w.lead w.origin w.name found) (found.after d [v]) := by
  rw [collect, if_neg fun old => new (List.contains_iff_mem.mp old), visitsAfter, List.foldl_append, List.foldl_map,
    List.foldl_map]
  simp [Found.after, seenAfter, usagesAt]

/-- Steps that each make a search from one declaration make one from all of them. -/
theorem foldl_explores {step : Found → Visit → Found} {found : Found}
    (each : ∀ v ∈ pending, ∀ now : Found, found.visited ⊆ now.visited →
      ∃ visits, Explores d [v] now.visited visits ∧ step now v = now.after d visits) :
    ∃ visits, Explores d pending found.visited visits ∧ pending.foldl step found = found.after d visits := by
  induction pending generalizing found with
  | nil => exact ⟨[], .nil, (Found.after_nil found).symm⟩
  | cons v rest ih =>
    rw [List.forall_mem_cons] at each
    obtain ⟨visits, first, eq⟩ := each.1 found (List.Subset.refl _)
    obtain ⟨others, later, eqToo⟩ := @ih (found.after d visits) fun w member now grown =>
      each.2 w member now (List.Subset.trans (subset_seenAfter _ _) grown)
    refine ⟨visits ++ others, first.append later, ?_⟩
    rw [List.foldl_cons, eq, eqToo, Found.after_append]

/-- The search with a bound is the one without. The bound suffices, since a visit inside another is at
    the target of a link that was not seen before. -/
theorem collect_explores {depth : Nat} {found : Found}
    (enough : v.name ∉ found.visited → (d.unseen (v.name :: found.visited)).length < depth) :
    ∃ visits, Explores d [v] found.visited visits ∧
      d.collect depth v.lead v.origin v.name found = found.after d visits := by
  induction depth generalizing v found with
  | zero =>
    by_cases old : v.name ∈ found.visited
    · exact collect_of_seen old 0
    · exact absurd (enough old) (Nat.not_lt_zero _)
  | succ depth ih =>
    by_cases old : v.name ∈ found.visited
    · exact collect_of_seen old _
    · have each : ∀ w ∈ d.visitsAfter v, ∀ now : Found, (found.after d [v]).visited ⊆ now.visited →
          ∃ visits, Explores d [w] now.visited visits ∧
            d.collect depth w.lead w.origin w.name now = now.after d visits := by
        intro w next now grown
        refine ih fun new => ?_
        -- `w` is the target of a link, so seeing it leaves one link fewer to the unseen.
        have fewer := unseen_length_lt (mem_linkTargets (linksTo_of_mem next)) new
        have least : (d.unseen now.visited).length ≤ (d.unseen (v.name :: found.visited)).length := unseen_length_le grown
        have bound := enough old
        omega
      obtain ⟨inner, inside, eq⟩ := foldl_explores each
      refine ⟨v :: (inner ++ []), .visit old inside .nil, ?_⟩
      rw [collect_of_new old, eq, List.append_nil, ← Found.after_append]
      rfl

/-- What is found for a declaration is found by the search from it. -/
theorem collect_start (d : Declarations) (name : String) : ∃ visits, Explores d [.start name] [] visits ∧
    (d.collect (d.linkCount + 2) .root .own name ⟨[], []⟩).usages = visits.flatMap d.usagesAt := by
  have bound : (d.unseen [name]).length ≤ d.linkCount := linkTargets_length d ▸ List.length_filter_le _ _
  obtain ⟨visits, explores, eq⟩ := @collect_explores d (.start name) (d.linkCount + 2) ⟨[], []⟩ fun _ => by
    change (d.unseen [name]).length < d.linkCount + 2
    omega
  exact ⟨visits, explores, congrArg Found.usages eq⟩

end StackCompiler.Declarations
