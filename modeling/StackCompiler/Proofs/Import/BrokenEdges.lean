import StackCompiler.Proofs.Import.Cycle

/-!
What breaking cycles leaves as it is. Whatever the declarations are, the walk breaks a reference only
where it leads back to the declarations through which the walk came (`walk_ledBack`), and such a
reference is on a cycle. Only the identifiers of broken references are taken away.
-/
namespace StackCompiler.Import

open DependencyGraph (Trail)

variable {statics : List Static} {ident target : String} {w : BackWalk}

/-- All that a walk has broken could be made by name and led back. -/
def LedBack (statics : List Static) (w : BackWalk) : Prop :=
  ∀ edge ∈ w.broken, (edge.target, true) ∈ edgesOf statics edge.source ∧
    Relation.ReflTransGen (fun a b => b ∈ targetsOf statics a) edge.target edge.source

theorem visit_ledBack {next : String → BackWalk → BackWalk} (before : LedBack statics w)
    (after : LedBack statics (next target w)) : LedBack statics (w.visit next target) := by
  unfold BackWalk.visit
  split
  · exact before
  · exact after

/-- A walk from a declaration breaks only what leads back to its trail. -/
theorem walkFrom_ledBack {depth : Nat} {stack : List String}
    (trail : Trail (targetsOf statics) (idents statics) (ident :: stack)) (before : LedBack statics w) :
    LedBack statics (walkFrom (edgesOf statics) depth stack ident w) := by
  induction depth generalizing stack ident w with
  | zero => exact before
  | succ depth ih =>
    have follows : ∀ w, LedBack statics w → ∀ edge ∈ edgesOf statics ident,
        LedBack statics (w.follow (walkFrom (edgesOf statics) depth (ident :: stack)) (ident :: stack) ident edge) := by
      rintro w before ⟨target, byName⟩ edge
      rw [BackWalk.follow]
      split
      case isTrue back =>
        split
        case isFalse => exact before
        case isTrue named =>
          subst named
          -- The trail is a path, so from the target it leads to where the walk is.
          have led := trail.reaches (List.contains_iff_mem.mp back)
          exact List.forall_mem_append.mpr ⟨before, List.forall_mem_singleton.mpr ⟨edge, led⟩⟩
      case isFalse new =>
        obtain ⟨-, -, -, -, declared⟩ := exists_of_mem_edgesOf edge
        have longer := trail.push (mem_targetsOf.mpr ⟨byName, edge⟩) declared fun old => new (List.contains_iff_mem.mpr old)
        exact visit_ledBack before (ih longer before)
    exact List.foldlRecOn (edgesOf statics ident) _ before follows

theorem walk_ledBack (statics : List Static) : LedBack statics (walk statics) := by
  refine List.foldlRecOn (walkStarts statics) _ (List.forall_mem_nil _) fun w before ident start => ?_
  have declared : ident ∈ idents statics := by
    obtain ⟨s, member, rfl⟩ := List.mem_map.mp start
    refine List.mem_map_of_mem ?_
    rcases List.mem_append.mp member with top | part
    · exact List.mem_of_mem_filter top
    · exact List.mem_of_mem_filter part
  exact visit_ledBack before (walkFrom_ledBack
    ⟨List.nodup_singleton ident, List.forall_mem_singleton.mpr declared, .singleton ident⟩ before)

theorem mem_brokenTargets {broken : List BrokenEdge} {source : String} :
    target ∈ (broken.filter (·.source == source)).map (·.target) ↔ ⟨source, target⟩ ∈ broken := by
  constructor
  · intro member
    obtain ⟨edge, listed, rfl⟩ := List.mem_map.mp member
    obtain ⟨inside, same⟩ := List.mem_filter.mp listed
    obtain rfl := beq_iff_eq.mp same
    exact inside
  · intro inside
    exact List.mem_map.mpr ⟨_, List.mem_filter.mpr ⟨inside, beq_self_eq_true source⟩, rfl⟩

/-- A reference loses the identifier that it carries if it is broken where it stands. -/
theorem demoteEdges_eq (broken : List BrokenEdge) (s : Static) :
    s.demoteEdges broken = { s with body := s.body.mapSlots (Option.filter fun target => ⟨s.ident, target⟩ ∉ broken) } := by
  have targets : (broken.filter (·.source == s.ident)).foldl (fun body edge => body.demote edge.target) s.body =
      ((broken.filter (·.source == s.ident)).map (·.target)).foldl (fun body target => body.demote target) s.body := by
    rw [List.foldl_map]
  rw [Static.demoteEdges, targets, Rust.Expr.demoteAll_eq_mapSlots]
  simp only [mem_brokenTargets]

/-- What is broken is a reference that can be made by name, to a declaration that goes through the one
    in which it stands. -/
theorem broken_onCycle {edge : BrokenEdge} (broken : edge ∈ (breakCycles statics).2) :
    GoesThrough statics edge.source edge.target ∧ Relation.ReflTransGen (GoesThrough statics) edge.target edge.source ∧
      ∃ s ∈ statics, s.ident = edge.source ∧ (edge.target, true) ∈ s.body.directReferences := by
  obtain ⟨named, back⟩ := walk_ledBack statics edge broken
  obtain ⟨s, member, same, direct, declared⟩ := exists_of_mem_edgesOf named
  refine ⟨⟨declared, s, member, same, true, direct⟩, ?_, s, member, same, direct⟩
  exact Relation.ReflTransGen.mono (fun _ _ => goesThrough_of_mem_targetsOf) _ _ back

/-- Breaking cycles takes from references the identifiers of what is broken where they stand, and changes
    nothing else. Each broken reference could be made by name and led to a declaration that goes
    back through the one in which it stands. So declarations none of which goes through itself
    stay as they are. -/
theorem breakCycles_conservative (statics : List Static) :
    (breakCycles statics).1 = statics.map (fun s => { s with
      body := s.body.mapSlots (Option.filter fun target => ⟨s.ident, target⟩ ∉ (breakCycles statics).2) }) ∧
    (∀ edge ∈ (breakCycles statics).2, GoesThrough statics edge.source edge.target ∧
      Relation.ReflTransGen (GoesThrough statics) edge.target edge.source ∧
      ∃ s ∈ statics, s.ident = edge.source ∧ (edge.target, true) ∈ s.body.directReferences) ∧
    ((∀ ident, ¬ Relation.TransGen (GoesThrough statics) ident ident) → breakCycles statics = (statics, [])) := by
  refine ⟨List.map_congr_left fun s _ => demoteEdges_eq _ s, fun edge => broken_onCycle, fun acyclic => ?_⟩
  have none : (walk statics).broken = [] := by
    refine List.eq_nil_iff_forall_not_mem.mpr fun edge broken => ?_
    obtain ⟨through, back, -⟩ := broken_onCycle broken
    exact acyclic edge.source (.head' through back)
  have kept : Static.demoteEdges [] = id := rfl
  simp [breakCycles, none, kept]

/-- A queue that is named for a topic, and the topic, which may use two attributes of the queue. -/
def pairStatics (topicFields : List (String × Rust.Expr)) : List Static :=
  [.ofStruct "Queue" "sqs::Queue" [("name", .ref "Topic" (some "Topic"))] .params,
   .ofStruct "Topic" "sns::Topic" topicFields .params]

theorem breakCycles_conservative_pair :
    let loop := pairStatics [("arn", .attr "Queue" "Arn" (some "Queue")), ("name", .ref "Queue" (some "Queue"))]
    (breakCycles loop).2 = [⟨"Topic", "Queue"⟩] ∧ Relation.ReflTransGen (GoesThrough loop) "Queue" "Topic" ∧
      (∀ ident, ¬ Relation.TransGen (GoesThrough (pairStatics [])) ident ident) ∧
      breakCycles (pairStatics []) = (pairStatics [], []) := by
  intro loop
  have broken : (breakCycles loop).2 = [⟨"Topic", "Queue"⟩] := by decide +kernel
  have only (a b : String) (through : GoesThrough (pairStatics []) a b) : a = "Queue" ∧ b = "Topic" := by
    obtain ⟨-, s, member, rfl, byName, direct⟩ := through
    rcases List.mem_cons.mp member with rfl | member
    · exact ⟨rfl, (Prod.mk.inj (List.mem_singleton.mp direct)).1⟩
    · obtain rfl := List.mem_singleton.mp member
      cases direct
  have acyclic (ident : String) : ¬ Relation.TransGen (GoesThrough (pairStatics [])) ident ident := by
    intro cycle
    obtain ⟨_, first, -⟩ := Relation.TransGen.head'_iff.mp cycle
    obtain ⟨_, -, last⟩ := Relation.TransGen.tail'_iff.mp cycle
    exact absurd ((only _ _ first).1.symm.trans (only _ _ last).2) (by decide)
  obtain ⟨-, back, -⟩ := (breakCycles_conservative loop).2.1 ⟨"Topic", "Queue"⟩ (broken ▸ List.mem_singleton.mpr rfl)
  exact ⟨broken, back, acyclic, (breakCycles_conservative (pairStatics [])).2.2 acyclic⟩

end StackCompiler.Import
