import StackCompiler.Import.Cycle
import StackCompiler.Proofs.Declaration.GraphCycle
import StackCompiler.Proofs.Distinct
import StackCompiler.Proofs.Import.Forest

/-!
Breaking cycles. A walk is settled if what it is done with is grounded but for the
references that it found to lead back (`Settled`). It never comes back to a declaration
that is held, since such a declaration can be reached from its holder only
(`not_mem_trail_of_held`). So all references that lead back are broken, and without them
no declaration goes through itself.
-/
namespace StackCompiler.Import

open DependencyGraph (Grounded Trail)

/-- The initialiser of the declaration `source` goes through the declaration `target`. -/
def GoesThrough (statics : List Static) (source target : String) : Prop :=
  target ∈ idents statics ∧ ∃ s ∈ statics, s.ident = source ∧ ∃ byName, (target, byName) ∈ s.body.directReferences

/-! ### The references of declarations -/

variable {statics : List Static} {s : Static} {ident target : String} {byName : Bool}

theorem find?_ident (forest : IsForest statics) (member : s ∈ statics) :
    statics.find? (·.ident == s.ident) = some s := by
  have found : (statics.find? (·.ident == s.ident)).isSome := by
    rw [List.find?_isSome]
    exact ⟨s, member, by simp⟩
  obtain ⟨other, eq⟩ := Option.isSome_iff_exists.mp found
  have same : other.ident = s.ident := by simpa using List.find?_some eq
  rw [eq, forest.eq_of_ident (List.mem_of_find?_eq_some eq) member same]

theorem declared_iff (statics : List Static) (target : String) :
    statics.any (·.ident == target) = true ↔ target ∈ idents statics := by
  simp [idents, List.any_eq_true]

theorem exists_of_mem_edgesOf (edge : (target, byName) ∈ edgesOf statics ident) :
    ∃ s ∈ statics, s.ident = ident ∧ (target, byName) ∈ s.body.directReferences ∧ target ∈ idents statics := by
  unfold edgesOf at edge
  split at edge
  · cases edge
  · rename_i s found
    obtain ⟨kept, declared⟩ := List.mem_filter.mp edge
    exact ⟨s, List.mem_of_find?_eq_some found, by simpa using List.find?_some found, mem_of_mem_keepFirst kept,
      (declared_iff statics target).mp declared⟩

theorem mem_edgesOf (forest : IsForest statics) (member : s ∈ statics)
    (direct : (target, byName) ∈ s.body.directReferences) (declared : target ∈ idents statics) :
    (target, byName) ∈ edgesOf statics s.ident := by
  obtain ⟨⟨_, flag⟩, kept, rfl⟩ := exists_mem_keepFirst Prod.fst (fun _ _ => beq_iff_eq) direct
  have same := forest.byName_unique member member (mem_of_mem_keepFirst kept) direct
  simp only [edgesOf, find?_ident forest member, List.mem_filter]
  exact ⟨same ▸ kept, (declared_iff statics _).mpr declared⟩

/-! ### Walks -/

/-- What a declaration goes through, as a walk needs it. -/
def targetsOf (statics : List Static) (ident : String) : List String := (edgesOf statics ident).map (·.1)

theorem mem_targetsOf : target ∈ targetsOf statics ident ↔ ∃ byName, (target, byName) ∈ edgesOf statics ident := by
  simp [targetsOf]

theorem goesThrough_of_mem_targetsOf (needed : target ∈ targetsOf statics ident) : GoesThrough statics ident target := by
  obtain ⟨byName, edge⟩ := mem_targetsOf.mp needed
  obtain ⟨s, member, same, direct, declared⟩ := exists_of_mem_edgesOf edge
  exact ⟨declared, s, member, same, byName, direct⟩

theorem mem_targetsOf_of_goesThrough (forest : IsForest statics) (through : GoesThrough statics ident target) :
    target ∈ targetsOf statics ident := by
  obtain ⟨declared, s, member, rfl, byName, direct⟩ := through
  exact mem_targetsOf.mpr ⟨byName, mem_edgesOf forest member direct declared⟩

/-- The references that a walk did not break. -/
def remaining (statics : List Static) (w : BackWalk) (ident : String) : List String :=
  (targetsOf statics ident).filter (⟨ident, ·⟩ ∉ w.broken)

theorem mem_remaining {w : BackWalk} :
    target ∈ remaining statics w ident ↔ target ∈ targetsOf statics ident ∧ ⟨ident, target⟩ ∉ w.broken := by
  simp [remaining]

/-- All references are grounded but for those that are broken. These can be made by name, and they
    lead back. -/
structure Settled (statics : List Static) (w : BackWalk) : Prop where
  grounded : Grounded (remaining statics w) w.done
  breakable : ∀ edge ∈ w.broken, (edge.target, true) ∈ edgesOf statics edge.source
  back : ∀ edge ∈ w.broken, Relation.ReflTransGen (fun a b => b ∈ targetsOf statics a) edge.target edge.source
  stuck : w.stuck = []

/-- A settled walk that goes on from `w`. -/
structure Advances (statics : List Static) (w after : BackWalk) : Prop where
  settled : Settled statics after
  done : w.done ⊆ after.done
  broken : w.broken ⊆ after.broken

theorem Advances.refl {w : BackWalk} (settled : Settled statics w) : Advances statics w w :=
  ⟨settled, List.Subset.refl _, List.Subset.refl _⟩

theorem Advances.trans {w mid after : BackWalk} (first : Advances statics w mid) (second : Advances statics mid after) :
    Advances statics w after :=
  ⟨second.settled, List.Subset.trans first.done second.done, List.Subset.trans first.broken second.broken⟩

/-- Steps that each advance a walk, and that reach what later steps keep. -/
theorem foldl_advances {α : Type} {step : BackWalk → α → BackWalk} {Reached : α → BackWalk → Prop} {items : List α}
    {w : BackWalk} (kept : ∀ a w after, Advances statics w after → Reached a w → Reached a after)
    (one : ∀ a ∈ items, ∀ w, Settled statics w → Advances statics w (step w a) ∧ Reached a (step w a))
    (settled : Settled statics w) :
    Advances statics w (items.foldl step w) ∧ ∀ a ∈ items, Reached a (items.foldl step w) := by
  induction items generalizing w with
  | nil => exact ⟨.refl settled, List.forall_mem_nil _⟩
  | cons item rest ih =>
    rw [List.forall_mem_cons] at one
    obtain ⟨first, reached⟩ := one.1 w settled
    obtain ⟨later, others⟩ := ih one.2 first.settled
    rw [List.foldl_cons, List.forall_mem_cons]
    exact ⟨first.trans later, kept item _ _ later reached, others⟩

theorem break_advances {w : BackWalk} (settled : Settled statics w) (edge : (target, true) ∈ edgesOf statics ident)
    (back : Relation.ReflTransGen (fun a b => b ∈ targetsOf statics a) target ident) :
    Advances statics w { w with broken := w.broken ++ [⟨ident, target⟩] } where
  settled := {
    grounded := settled.grounded.mono fun name other left => by
      obtain ⟨needed, kept⟩ := mem_remaining.mp left
      exact mem_remaining.mpr ⟨needed, fun broken => kept (List.mem_append_left _ broken)⟩
    breakable := List.forall_mem_append.mpr ⟨settled.breakable, List.forall_mem_singleton.mpr edge⟩
    back := List.forall_mem_append.mpr ⟨settled.back, List.forall_mem_singleton.mpr back⟩
    stuck := settled.stuck }
  done := List.Subset.refl _
  broken := List.subset_append_left _ _

/-- A held declaration is not among those through which its holder was reached. -/
theorem not_mem_trail_of_held (forest : IsForest statics) {stack : List String}
    (trail : Trail (targetsOf statics) (idents statics) (ident :: stack))
    (bottom : ∀ last ∈ (ident :: stack).getLast?, last ∈ topIdents statics)
    (held : (target, false) ∈ edgesOf statics ident) : target ∉ ident :: stack := by
  intro again
  obtain ⟨holder, member, same, direct, -⟩ := exists_of_mem_edgesOf held
  obtain ⟨inner, outer, split⟩ := List.append_of_mem again
  cases outer with
  | nil =>
    have last : target ∈ (ident :: stack).getLast? := by simp [split]
    exact forest.held_not_top member (mem_heldOf.mpr direct) (bottom target last)
  | cons below outer =>
    have once := trail.once
    have chain := trail.chain
    rw [split] at once chain
    have edge : target ∈ targetsOf statics below :=
      (List.isChain_cons_cons.mp (List.isChain_append.mp chain).2.1).1
    obtain ⟨flag, edge⟩ := mem_targetsOf.mp edge
    obtain ⟨other, too, sameToo, directToo, -⟩ := exists_of_mem_edgesOf edge
    obtain rfl := forest.byName_unique too member directToo direct
    -- Whoever goes through the held declaration is its holder, which would be on the trail twice.
    obtain rfl := forest.holder_unique too member (mem_heldOf.mpr directToo) (mem_heldOf.mpr direct)
    have first : ident ∈ inner ++ [target] := by
      cases inner with
      | nil => exact List.mem_singleton.mpr (List.cons.inj split).1
      | cons head inner => exact List.mem_cons.mpr (.inl (List.cons.inj split).1)
    rw [List.append_cons] at once
    exact (List.nodup_append.mp once).2.2 ident first below List.mem_cons_self (same.symm.trans sameToo)

/-- Where `next` advances a walk from what it is not done with, the walk is then done with it. -/
theorem visit_advances {next : String → BackWalk → BackWalk} {w : BackWalk} (settled : Settled statics w)
    (walks : Advances statics w (next target w) ∧ target ∈ (next target w).done) :
    Advances statics w (w.visit next target) ∧ target ∈ (w.visit next target).done := by
  unfold BackWalk.visit
  split
  · rename_i done
    exact ⟨.refl settled, by simpa using done⟩
  · exact walks

/-- A walk from a declaration. Its depth suffices, since the declarations of the trail differ. -/
theorem walkFrom_advances (forest : IsForest statics) {depth : Nat} {stack : List String} {w : BackWalk}
    (trail : Trail (targetsOf statics) (idents statics) (ident :: stack))
    (bottom : ∀ last ∈ (ident :: stack).getLast?, last ∈ topIdents statics) (settled : Settled statics w)
    (enough : statics.length ≤ stack.length + depth) :
    Advances statics w (walkFrom (edgesOf statics) depth stack ident w) ∧
      ident ∈ (walkFrom (edgesOf statics) depth stack ident w).done := by
  induction depth generalizing stack ident w with
  | zero =>
    have bound := trail.length_le
    simp only [List.length_cons, idents, List.length_map] at bound
    omega
  | succ depth ih =>
    -- A reference is settled once it is broken or leads to a declaration that is done with.
    let Reached (edge : String × Bool) (w : BackWalk) : Prop := edge.1 ∈ w.done ∨ ⟨ident, edge.1⟩ ∈ w.broken
    have kept : ∀ edge w after, Advances statics w after → Reached edge w → Reached edge after :=
      fun edge w after advances reached => reached.imp (fun done => advances.done done) fun broken => advances.broken broken
    have follows : ∀ edge ∈ edgesOf statics ident, ∀ w, Settled statics w →
        Advances statics w (w.follow (walkFrom (edgesOf statics) depth (ident :: stack)) (ident :: stack) ident edge) ∧
          Reached edge (w.follow (walkFrom (edgesOf statics) depth (ident :: stack)) (ident :: stack) ident edge) := by
      rintro ⟨target, byName⟩ edge w settled
      by_cases back : target ∈ ident :: stack
      · cases byName with
        | false => exact absurd back (not_mem_trail_of_held forest trail bottom edge)
        | true =>
          rw [BackWalk.follow, if_pos (List.contains_iff_mem.mpr back), if_pos rfl]
          exact ⟨break_advances settled edge (trail.reaches back), .inr (List.mem_append_right _ (List.mem_singleton.mpr rfl))⟩
      · obtain ⟨-, -, -, -, declared⟩ := exists_of_mem_edgesOf edge
        have longer := trail.push (mem_targetsOf.mpr ⟨byName, edge⟩) declared back
        have room : statics.length ≤ (ident :: stack).length + depth := by
          rw [List.length_cons]
          omega
        rw [BackWalk.follow, if_neg fun found => back (List.contains_iff_mem.mp found)]
        have visits := visit_advances settled (ih longer (by rwa [List.getLast?_cons_cons]) settled room)
        exact ⟨visits.1, .inl visits.2⟩
    obtain ⟨advances, reached⟩ := foldl_advances kept follows settled
    rw [walkFrom]
    refine ⟨⟨⟨⟨?_, advances.settled.grounded⟩, advances.settled.breakable, advances.settled.back,
      advances.settled.stuck⟩, fun name done => List.mem_cons_of_mem _ (advances.done done), advances.broken⟩, List.mem_cons_self⟩
    intro target left
    obtain ⟨needed, kept⟩ := mem_remaining.mp left
    obtain ⟨byName, edge⟩ := mem_targetsOf.mp needed
    exact (reached _ edge).resolve_right kept

/-! ### The walk through all declarations -/

theorem walkStarts_eq (statics : List Static) :
    walkStarts statics = topIdents statics ++ idents (statics.filter (! ·.topLevel)) :=
  List.map_append

/-- What is held by a declaration that a settled walk is done with is done with. -/
theorem Settled.held_done (forest : IsForest statics) {w : BackWalk} (settled : Settled statics w) (member : s ∈ statics)
    (done : s.ident ∈ w.done) : ∀ target ∈ s.held, target ∈ w.done := by
  intro target held
  have edge := mem_edgesOf forest member (mem_heldOf.mp held) (forest.held_declared member held)
  refine settled.grounded.closed done (mem_remaining.mpr ⟨mem_targetsOf.mpr ⟨false, edge⟩, fun broken => ?_⟩)
  obtain ⟨other, too, same, direct, -⟩ := exists_of_mem_edgesOf (settled.breakable _ broken)
  exact absurd (forest.byName_unique too member direct (mem_heldOf.mp held)) (by decide)

theorem foldl_visit_done {next : String → BackWalk → BackWalk} {w : BackWalk} {starts : List String}
    (done : ∀ ident ∈ starts, ident ∈ w.done) : starts.foldl (·.visit next ·) w = w := by
  induction starts with
  | nil => rfl
  | cons first rest ih =>
    rw [List.forall_mem_cons] at done
    rw [List.foldl_cons, BackWalk.visit, if_pos (List.contains_iff_mem.mpr done.1), ih done.2]

/-- The walk is settled, and it is done with every declaration. -/
theorem walk_settled (forest : IsForest statics) :
    Settled statics (walk statics) ∧ ∀ s ∈ statics, s.ident ∈ (walk statics).done := by
  let next := walkFrom (edgesOf statics) (statics.length + 1) []
  have visits : ∀ ident ∈ topIdents statics, ∀ w, Settled statics w →
      Advances statics w (w.visit next ident) ∧ ident ∈ (w.visit next ident).done := by
    intro ident top w settled
    have declared : ident ∈ idents statics := (List.filter_sublist.map _).subset top
    have trail : Trail (targetsOf statics) (idents statics) [ident] :=
      ⟨List.nodup_singleton ident, List.forall_mem_singleton.mpr declared, .singleton ident⟩
    have bottom : ∀ last ∈ [ident].getLast?, last ∈ topIdents statics := by simpa using top
    exact visit_advances settled (walkFrom_advances forest trail bottom settled (by rw [List.length_nil]; omega))
  have kept : ∀ (ident : String) (w after : BackWalk), Advances statics w after → ident ∈ w.done → ident ∈ after.done :=
    fun _ _ _ advances done => advances.done done
  have fresh : Settled statics ⟨[], [], []⟩ := ⟨trivial, List.forall_mem_nil _, List.forall_mem_nil _, rfl⟩
  obtain ⟨advances, done⟩ := foldl_advances kept visits fresh
  have all := forest.unfolds.all done fun s member done => advances.settled.held_done forest member done
  -- The walks from entries reach all there is, so that those from parts find nothing to do.
  have rest : walk statics = (topIdents statics).foldl (·.visit next ·) ⟨[], [], []⟩ := by
    rw [walk, walkStarts_eq, List.foldl_append]
    refine foldl_visit_done fun ident part => ?_
    obtain ⟨s, member, rfl⟩ := List.mem_map.mp part
    exact all s (List.mem_of_mem_filter member)
  rw [rest]
  exact ⟨advances.settled, all⟩

/-! ### Declarations without cycles -/

theorem mem_references_demoteEdges {broken : List BrokenEdge} {r : String × Bool} :
    r ∈ (s.demoteEdges broken).body.directReferences ↔
      r ∈ s.body.directReferences ∧ ∀ edge ∈ broken, edge.source = s.ident → r ≠ (edge.target, true) := by
  have fold (edges : List BrokenEdge) (body : Rust.Expr) :
      r ∈ (edges.foldl (fun body edge => body.demote edge.target) body).directReferences ↔
        r ∈ body.directReferences ∧ ∀ edge ∈ edges, r ≠ (edge.target, true) := by
    induction edges generalizing body with
    | nil => simp
    | cons edge rest ih =>
      rw [List.foldl_cons, ih, Rust.Expr.directReferences_demote, List.forall_mem_cons]
      simp [Rust.Expr.without, and_assoc]
  rw [Static.demoteEdges, fold]
  simp

theorem idents_breakCycles (statics : List Static) : idents (breakCycles statics).1 = idents statics := by
  simp [breakCycles, idents, Static.demoteEdges, Function.comp_def]

/-- Only what is broken is no longer gone through. -/
theorem goesThrough_breakCycles_iff (forest : IsForest statics) (source target : String) :
    GoesThrough (breakCycles statics).1 source target ↔
      GoesThrough statics source target ∧ ⟨source, target⟩ ∉ (breakCycles statics).2 := by
  constructor
  · rintro ⟨declared, after, inside, rfl, byName, direct⟩
    obtain ⟨s, member, rfl⟩ := List.mem_map.mp inside
    obtain ⟨direct, kept⟩ := mem_references_demoteEdges.mp direct
    rw [idents_breakCycles] at declared
    refine ⟨⟨declared, s, member, rfl, byName, direct⟩, fun broken => ?_⟩
    -- What is broken could be made by name, so that this reference was not left.
    obtain ⟨other, too, -, named, -⟩ := exists_of_mem_edgesOf ((walk_settled forest).1.breakable _ broken)
    obtain rfl := forest.byName_unique member too direct named
    exact kept _ broken rfl rfl
  · rintro ⟨⟨declared, s, member, rfl, byName, direct⟩, kept⟩
    rw [← idents_breakCycles] at declared
    refine ⟨declared, _, List.mem_map_of_mem member, rfl, byName, mem_references_demoteEdges.mpr ⟨direct, ?_⟩⟩
    rintro ⟨_, _⟩ broken rfl same
    exact kept ((Prod.mk.inj same).1 ▸ broken)

/-- What is broken led from a declaration back to it. -/
theorem goesThrough_of_broken (forest : IsForest statics) {edge : BrokenEdge} (broken : edge ∈ (breakCycles statics).2) :
    GoesThrough statics edge.source edge.target ∧
      Relation.ReflTransGen (GoesThrough statics) edge.target edge.source := by
  obtain ⟨settled, -⟩ := walk_settled forest
  have needed : edge.target ∈ targetsOf statics edge.source := mem_targetsOf.mpr ⟨true, settled.breakable edge broken⟩
  exact ⟨goesThrough_of_mem_targetsOf needed,
    Relation.ReflTransGen.mono (fun _ _ => goesThrough_of_mem_targetsOf) _ _ (settled.back edge broken)⟩

/-- No declaration goes through itself once the cycles are broken. -/
theorem IsForest.acyclic (forest : IsForest statics) (ident : String) :
    ¬ Relation.TransGen (GoesThrough (breakCycles statics).1) ident ident := by
  intro cycle
  obtain ⟨settled, done⟩ := walk_settled forest
  have left : ∀ a b, GoesThrough (breakCycles statics).1 a b → b ∈ remaining statics (walk statics) a := by
    intro a b through
    obtain ⟨through, kept⟩ := (goesThrough_breakCycles_iff forest a b).mp through
    exact mem_remaining.mpr ⟨mem_targetsOf_of_goesThrough forest through, kept⟩
  obtain ⟨next, ⟨-, source, inside, same, -⟩, -⟩ := Relation.TransGen.head'_iff.mp cycle
  obtain ⟨s, member, rfl⟩ := List.mem_map.mp inside
  have reached : ident ∈ (walk statics).done := same ▸ done s member
  exact settled.grounded.acyclic left reached cycle

end StackCompiler.Import
