import StackCompiler.Proofs.Declaration.Resolution
import StackCompiler.Proofs.Value.Parts

/-!
Where the usages of a declaration stand to which several ways lead. A search visits it on the first
way only: the one that goes on, at each declaration, with the first link that leads there
(`FirstWay`). Where links do not lead in circles there is one such way to every declaration that is
reached (`FirstWay.unique`), and the search makes exactly the visits at their ends
(`Explores.mem_iff_firstWay`).
-/
namespace StackCompiler

/-- The first element with a property is the same however a list is split at it. -/
theorem first_unique {α : Type} {P : α → Prop} {a b : α} {before after start rest : List α}
    (same : before ++ a :: after = start ++ b :: rest) (first : ∀ x ∈ before, ¬ P x) (holds : P a)
    (firstToo : ∀ x ∈ start, ¬ P x) (holdsToo : P b) : a = b := by
  rcases List.append_eq_append_iff.mp same with ⟨between, rfl, eq⟩ | ⟨between, rfl, eq⟩
  · cases between with
    | nil => exact (List.cons.inj eq).1
    | cons x between =>
      obtain ⟨rfl, -⟩ := List.cons.inj eq
      exact absurd holds (firstToo a (by simp))
  · cases between with
    | nil => exact (List.cons.inj eq).1.symm
    | cons x between =>
      obtain ⟨rfl, -⟩ := List.cons.inj eq
      exact absurd holdsToo (first b (by simp))

namespace Declarations

/-- No declaration to which `name` leads is one that leads to itself. -/
def AcyclicFrom (d : Declarations) (name : String) : Prop :=
  ∀ other, d.Reaches name other → ¬ Relation.TransGen d.LinksTo other other

/-- From the visit `v`, going on with the first link that leads to the declaration of `last` comes to `last`. -/
inductive FirstWay (d : Declarations) : (v last : Visit) → Prop
  | here {v : Visit} : FirstWay d v v
  | on {v next last : Visit} {before after : List Visit} (split : d.visitsAfter v = before ++ next :: after)
      (first : ∀ w ∈ before, ¬ d.Reaches w.name last.name) (way : FirstWay d next last) : FirstWay d v last

/-- `name` uses the value of `last` through fields, one inside the other, that together are at `path`. -/
inductive Forwards (d : Declarations) : (name : String) → (path : FieldPath) → (last : String) → Prop
  | here {name : String} : Forwards d name .root name
  | through {name field target last : String} {path : FieldPath} (entry : (field, target) ∈ d.fieldsOf name)
      (rest : Forwards d target path last) : Forwards d name ((FieldPath.parse field).join path) last

/-- `name` uses the value of `last` through fields at `path`, before each of which no other field leads to
    `last`. -/
inductive ForwardsFirst (d : Declarations) : (name : String) → (path : FieldPath) → (last : String) → Prop
  | here {name : String} : ForwardsFirst d name .root name
  | through {name field target last : String} {path : FieldPath} {before after : List (String × String)}
      (split : d.fieldsOf name = before ++ (field, target) :: after) (first : ∀ e ∈ before, ¬ d.Reaches e.2 last)
      (rest : ForwardsFirst d target path last) : ForwardsFirst d name ((FieldPath.parse field).join path) last

variable {d : Declarations} {v w next last : Visit} {name other : String} {pending visits : List Visit}
  {seen : List String}

/-! ### Ways -/

theorem AcyclicFrom.of_link (acyclic : d.AcyclicFrom name) (link : d.LinksTo name other) : d.AcyclicFrom other :=
  fun x path => acyclic x (path.head link)

theorem AcyclicFrom.not_back (acyclic : d.AcyclicFrom name) (link : d.LinksTo name other) : ¬ d.Reaches other name :=
  fun back => acyclic name .refl (.head' link back)

theorem linksTo_of_split {before after : List Visit} (split : d.visitsAfter v = before ++ next :: after) :
    d.LinksTo v.name next.name :=
  linksTo_of_mem (split ▸ List.mem_append_right _ List.mem_cons_self)

theorem FirstWay.reaches (way : FirstWay d v last) : d.Reaches v.name last.name := by
  induction way with
  | here => exact .refl
  | on split _ _ ih => exact ih.head (linksTo_of_split split)

/-- There is at most one first way to a declaration. -/
theorem FirstWay.unique (acyclic : d.AcyclicFrom v.name) (way : FirstWay d v last) (wayToo : FirstWay d v w)
    (same : w.name = last.name) : w = last := by
  induction way with
  | here =>
    cases wayToo with
    | here => rfl
    | on split _ rest =>
      have link := linksTo_of_split split
      exact absurd (same ▸ rest.reaches) (acyclic.not_back link)
  | @on v next last before after split first rest ih =>
    have link := linksTo_of_split split
    cases wayToo with
    | here => exact absurd (same ▸ rest.reaches) (acyclic.not_back link)
    | on splitToo firstToo restToo =>
      rw [same] at firstToo
      have eq := first_unique (P := fun x => d.Reaches x.name last.name) (split.symm.trans splitToo) first rest.reaches
        firstToo (same ▸ restToo.reaches)
      subst eq
      exact ih (acyclic.of_link link) restToo same

/-! ### Searches -/

/-- A search has seen all that is linked to what it has seen, as far as something pending leads to that. -/
def Closed (d : Declarations) (pending : List Visit) (seen : List String) : Prop :=
  ∀ v ∈ pending, ∀ x ∈ seen, d.Reaches v.name x → ∀ y, d.LinksTo x y → y ∈ seen

namespace Closed

theorem tail (closed : Closed d (v :: pending) seen) : Closed d pending seen :=
  fun w waiting => closed w (List.mem_cons_of_mem _ waiting)

theorem seen_of_reaches (closed : Closed d (v :: pending) seen) (old : v.name ∈ seen) (path : d.Reaches v.name other) :
    other ∈ seen :=
  mem_of_reaches old (closed v List.mem_cons_self) path

/-- Nothing inside a visit leads back to it. -/
theorem inside (closed : Closed d (v :: pending) seen) (acyclic : d.AcyclicFrom v.name) :
    Closed d (d.visitsAfter v) (v.name :: seen) := by
  intro w next x old path y link
  have first := linksTo_of_mem next
  rcases List.mem_cons.mp old with rfl | old
  · exact absurd path (acyclic.not_back first)
  · exact List.mem_cons_of_mem _ (closed v List.mem_cons_self x old (path.head first) y link)

/-- After a visit, all has been seen to which the visit led. -/
theorem after {inner : List Visit} (closed : Closed d pending seen)
    (inside : Explores d (d.visitsAfter v) (v.name :: seen) inner) : Closed d pending (seenAfter (v :: inner) seen) := by
  intro w waiting x old path y link
  rw [seenAfter_cons]
  rcases mem_seenAfter.mp old with ⟨visit, visited, rfl⟩ | old
  · rcases List.mem_cons.mp visited with rfl | visited
    · obtain ⟨next, leads, rfl⟩ := (linksTo_iff visit y).mp link
      exact inside.pending_seen next leads
    · exact inside.covered visit visited y link
  · exact subset_seenAfter _ _ (List.mem_cons_of_mem _ (closed w waiting x old path y link))

end Closed

/-- A search visits declarations at the ends of first ways only. A way starts at something that is
    pending, and nothing that is pending before it leads to the declaration. -/
theorem Explores.firstWay (explores : Explores d pending seen visits) (closed : Closed d pending seen)
    (acyclic : ∀ v ∈ pending, d.AcyclicFrom v.name) : ∀ last ∈ visits, ∃ before v after,
      pending = before ++ v :: after ∧ (∀ w ∈ before, ¬ d.Reaches w.name last.name) ∧ FirstWay d v last := by
  induction explores with
  | nil => exact List.forall_mem_nil _
  | @again v pending seen visits old rest ih =>
    intro last visited
    -- All that `v` leads to was seen before, and what is visited later is new.
    have passed : ¬ d.Reaches v.name last.name := fun path => rest.fresh last visited (closed.seen_of_reaches old path)
    obtain ⟨before, start, after, rfl, first, way⟩ := ih closed.tail (List.forall_mem_cons.mp acyclic).2 last visited
    exact ⟨v :: before, start, after, rfl, List.forall_mem_cons.mpr ⟨passed, first⟩, way⟩
  | @visit v pending seen inner later new inside rest ihInside ihRest =>
    rw [List.forall_mem_cons] at acyclic
    rw [List.forall_mem_cons, List.forall_mem_append]
    refine ⟨⟨[], v, pending, rfl, List.forall_mem_nil _, .here⟩, fun last visited => ?inner, fun last visited => ?later⟩
    case inner =>
      obtain ⟨before, next, after, split, first, way⟩ := ihInside (closed.inside acyclic.1)
        (fun w next => acyclic.1.of_link (linksTo_of_mem next)) last visited
      exact ⟨[], v, pending, rfl, List.forall_mem_nil _, .on split first way⟩
    case later =>
      have now := closed.after inside
      have own : v.name ∈ seenAfter (v :: inner) seen := mem_seenAfter.mpr (.inl ⟨v, List.mem_cons_self, rfl⟩)
      have passed : ¬ d.Reaches v.name last.name := fun path => rest.fresh last visited (now.seen_of_reaches own path)
      obtain ⟨before, start, after, rfl, first, way⟩ := ihRest now.tail acyclic.2 last visited
      exact ⟨v :: before, start, after, rfl, List.forall_mem_cons.mpr ⟨passed, first⟩, way⟩

/-- Where links do not lead in circles, a search visits the ends of the first ways from its start. -/
theorem Explores.mem_iff_firstWay (explores : Explores d [.start name] [] visits) (acyclic : d.AcyclicFrom name) :
    last ∈ visits ↔ FirstWay d (.start name) last := by
  have visited : ∀ last ∈ visits, FirstWay d (.start name) last := by
    intro last member
    obtain ⟨before, v, after, split, -, way⟩ := explores.firstWay (fun _ _ _ old => by cases old)
      (List.forall_mem_singleton.mpr acyclic) last member
    cases before with
    | nil =>
      obtain ⟨rfl, -⟩ := List.cons.inj split
      exact way
    | cons _ _ => simp at split
  refine ⟨visited last, fun way => ?_⟩
  -- The declaration is visited at the end of some first way, and there is only one.
  obtain ⟨v, member, same⟩ := explores.exact.mpr way.reaches
  obtain rfl := FirstWay.unique acyclic way (visited v member) same
  exact member

/-! ### Chains of fields -/

/-- A chain of fields before which no others lead to its end is a first way. -/
theorem ForwardsFirst.firstWay {path : FieldPath} {target : String} (chain : ForwardsFirst d name path target)
    (lead : FieldPath) (origin : Origin) :
    ∃ last : Visit, last.name = target ∧ last.lead = lead.join path ∧ FirstWay d ⟨name, lead, origin⟩ last := by
  induction chain generalizing lead origin with
  | here => exact ⟨_, rfl, (FieldPath.join_root lead).symm, .here⟩
  | @through name field target _ path before after split first _ ih =>
    obtain ⟨last, rfl, place, way⟩ := ih (lead.join (.parse field)) origin.passedOn
    let visitOf (e : String × String) : Visit := ⟨e.2, lead.join (.parse e.1), origin.passedOn⟩
    have links : d.visitsAfter ⟨name, lead, origin⟩ = before.map visitOf ++ visitOf (field, target) ::
        (after.map visitOf ++ (d.dependenciesOf name).map (⟨·, .root, .transitive⟩)) := by
      rw [visitsAfter, split]
      simp [visitOf]
    exact ⟨last, rfl, place.trans (FieldPath.join_assoc _ _ _), .on links (List.forall_mem_map.mpr first) way⟩

/-- Where every link leads to a lower rank, links do not lead in circles. -/
theorem acyclicFrom_of_rank (rank : String → Nat) (fields : ∀ e ∈ d.forwardings, ∀ f ∈ e.2.fields, rank f.2 < rank e.1)
    (dependencies : ∀ r ∈ d.resources, ∀ other ∈ r.dependencies, rank other < rank r.name) (name : String) :
    d.AcyclicFrom name := by
  have falls (x y : String) (link : d.LinksTo x y) : rank y < rank x := by
    rcases exists_of_linksTo link with ⟨e, member, rfl, f, field, rfl⟩ | ⟨r, declared, rfl, dependency⟩
    · exact fields e member f field
    · exact dependencies r declared y dependency
  have lower (x y : String) (path : Relation.TransGen d.LinksTo x y) : rank y < rank x := by
    induction path with
    | single link => exact falls _ _ link
    | tail _ link ih => exact Nat.lt_trans (falls _ _ link) ih
  exact fun other _ circle => Nat.lt_irrefl _ (lower other other circle)

/-- Where links do not lead in circles, a usage is reported at the path of a chain of fields before each of
    which no other field leads to the declaration that has it. Other ways to that declaration add
    nothing: what is reported are the usages of declarations at the ends of first ways. -/
theorem resolve_first_ways (acyclic : d.AcyclicFrom name) :
    (∀ path last, ForwardsFirst d name path last → ∀ a ∈ d.usagesOf last,
      ∃ u ∈ d.resolve name, u.content = (path.join a.path, a.resource, a.name)) ∧
    ∀ content, (∃ u ∈ d.resolve name, u.content = content) ↔
      ∃ v, FirstWay d (.start name) v ∧ ∃ u ∈ d.usagesAt v, u.content = content := by
  obtain ⟨visits, explores, eq⟩ := resolve_eq d name
  have reported (content : FieldPath × String × String) : (∃ u ∈ d.resolve name, u.content = content) ↔
      ∃ v, FirstWay d (.start name) v ∧ ∃ u ∈ d.usagesAt v, u.content = content := by
    rw [eq]
    constructor
    · rintro ⟨u, member, same⟩
      obtain ⟨v, visited, found⟩ := List.mem_flatMap.mp (mem_of_mem_summary member)
      exact ⟨v, (explores.mem_iff_firstWay acyclic).mp visited, u, found, same⟩
    · rintro ⟨v, way, u, found, rfl⟩
      exact exists_mem_summary (List.mem_flatMap.mpr ⟨v, (explores.mem_iff_firstWay acyclic).mpr way, found⟩)
  refine ⟨fun path last chain a recorded => ?_, reported⟩
  obtain ⟨v, rfl, place, way⟩ := chain.firstWay .root .own
  refine (reported _).mpr ⟨v, way, _, List.mem_map_of_mem recorded, ?_⟩
  rw [Usage.content, place]
  rfl

/-- An output that uses a value in one field through another declaration, and in a second field directly. -/
def twoWays : Declarations :=
  { forwardings := [
      ("Output", { fields := [("Value", "Middle"), ("Label", "Helper")] }),
      ("Middle", { fields := [("Inner", "Helper")] }),
      ("Helper", { attrUsages := [⟨"Bucket", "Arn", ""⟩] })] }

theorem twoWays_acyclic : twoWays.AcyclicFrom "Output" :=
  acyclicFrom_of_rank (fun name => if name = "Output" then 2 else if name = "Middle" then 1 else 0) (by decide) (by decide) _

theorem resolve_first_ways_value :
    twoWays.AcyclicFrom "Output" ∧ ForwardsFirst twoWays "Output" ⟨[.key "Value", .key "Inner"]⟩ "Helper" ∧
      ∃ u ∈ twoWays.resolve "Output", u.content = (⟨[.key "Value", .key "Inner"]⟩, "Bucket", "Arn") := by
  have path : (FieldPath.parse "Value").join ((FieldPath.parse "Inner").join .root) = ⟨[.key "Value", .key "Inner"]⟩ := by
    decide +kernel
  have fields : twoWays.fieldsOf "Output" = [] ++ ("Value", "Middle") :: [("Label", "Helper")] := rfl
  have inner : twoWays.fieldsOf "Middle" = [] ++ ("Inner", "Helper") :: [] := rfl
  have chain : ForwardsFirst twoWays "Output" ⟨[.key "Value", .key "Inner"]⟩ "Helper" :=
    path ▸ .through fields (List.forall_mem_nil _) (.through inner (List.forall_mem_nil _) .here)
  have recorded : ⟨"Bucket", "Arn", ""⟩ ∈ twoWays.usagesOf "Helper" := List.mem_singleton.mpr rfl
  exact ⟨twoWays_acyclic, chain, (resolve_first_ways twoWays_acyclic).1 _ _ chain _ recorded⟩

/-- The second way to the usage is not reported. -/
theorem resolve_second_way :
    twoWays.AcyclicFrom "Output" ∧ Forwards twoWays "Output" ⟨[.key "Label"]⟩ "Helper" ∧
      ⟨"Bucket", "Arn", ""⟩ ∈ twoWays.usagesOf "Helper" ∧
      ¬ ∃ u ∈ twoWays.resolve "Output", u.content = ((⟨[.key "Label"]⟩ : FieldPath).join (.parse ""), "Bucket", "Arn") := by
  have path : (FieldPath.parse "Label").join .root = ⟨[.key "Label"]⟩ := by decide +kernel
  have resolved : (twoWays.resolve "Output").map Usage.content = [(⟨[.key "Value", .key "Inner"]⟩, "Bucket", "Arn")] := by
    decide +kernel
  have chain : Forwards twoWays "Output" ⟨[.key "Label"]⟩ "Helper" :=
    path ▸ .through (List.mem_cons_of_mem _ (List.mem_singleton.mpr rfl)) .here
  refine ⟨twoWays_acyclic, chain, List.mem_singleton.mpr rfl, ?_⟩
  rintro ⟨u, member, same⟩
  have listed := List.mem_map_of_mem (f := Usage.content) member
  rw [resolved, same] at listed
  exact absurd listed (by decide +kernel)

end Declarations

end StackCompiler
