import StackCompiler.Json.Reader
import StackCompiler.Proofs.Json.Formed
import StackCompiler.Proofs.Outcome

/-!
What reading a JSON text gives: a well-formed document that nests no deeper than the room
that reading starts with (`parse_fits`).
-/
namespace StackCompiler.Json

namespace Reader

variable {α β : Type} {P : α → Prop} {Q : β → Prop}

/-- All that a reader can give satisfies `P`. -/
def Gives (reader : Reader α) (P : α → Prop) : Prop :=
  ∀ start a after, reader start = .ok (a, after) → P a

theorem gives_pure {a : α} (holds : P a) : Gives (pure a) P := by
  rintro start b after ⟨⟩
  exact holds

theorem gives_bind {reader : Reader α} {next : α → Reader β} (first : Gives reader P)
    (later : ∀ a, P a → Gives (next a) Q) : Gives (reader >>= next) Q := by
  intro start b after done
  obtain ⟨⟨a, between⟩, now, done⟩ := (bind_eq_ok (reader start) (fun r => next r.1 r.2) _).mp done
  exact later a (first start a between now) between b after done

/-- What comes before does not matter. -/
theorem gives_after {reader : Reader α} {next : α → Reader β} (later : ∀ a, Gives (next a) Q) :
    Gives (reader >>= next) Q :=
  gives_bind (P := fun _ => True) (fun _ _ _ _ => trivial) fun a _ => later a

theorem gives_map {reader : Reader α} {f : α → β} (holds : Gives reader fun a => Q (f a)) : Gives (f <$> reader) Q := by
  rw [← bind_pure_comp]
  exact gives_bind holds fun _ => gives_pure

theorem gives_failHere (cause : Cause) : Gives (failHere cause) P := by
  rintro start a after ⟨⟩

theorem gives_failPast (cause : Cause) : Gives (failPast cause) P := by
  rintro start a after ⟨⟩

theorem gives_nested {body : Reader α} (holds : Gives body P) : Gives (nested body) P := by
  refine gives_after fun cursor => ?_
  split
  · exact gives_failPast _
  · refine gives_after fun _ => gives_after fun _ => gives_bind holds fun a satisfied => ?_
    exact gives_after fun _ => gives_pure satisfied

/-! ### Repeated steps -/

theorem gives_rounds {step : β → Reader (Option β)} (kept : ∀ b, Q b → Gives (step b) fun next => ∀ c ∈ next, Q c)
    (fuel : Nat) {b : β} (holds : Q b) : Gives (rounds step fuel b) Q := by
  induction fuel generalizing b with
  | zero => exact gives_pure holds
  | succ fuel ih =>
    refine gives_bind (kept b holds) fun next satisfied => ?_
    cases next with
    | none => exact gives_pure holds
    | some c => exact ih (satisfied c rfl)

theorem gives_exhaust {step : Bool → β → Reader (Option β)}
    (kept : ∀ first b, Q b → Gives (step first b) fun next => ∀ c ∈ next, Q c) {start : β} (holds : Q start) :
    Gives (exhaust step start) Q := by
  refine gives_bind (kept true start holds) fun next satisfied => ?_
  cases next with
  | none => exact gives_pure holds
  | some c => exact gives_after fun _ => gives_rounds (kept false) _ (satisfied c rfl)

theorem gives_items {item : Reader α} (holds : Gives item P) : Gives (items item) fun found => ∀ a ∈ found, P a := by
  refine gives_bind (P := fun found : List α => ∀ a ∈ found, P a) (gives_exhaust (fun first found satisfied => ?_) ?_) ?_
  · refine gives_after fun more => ?_
    split
    · refine gives_bind holds fun a now => gives_pure ?_
      rintro _ ⟨⟩
      exact List.forall_mem_cons.mpr ⟨now, satisfied⟩
    · exact gives_pure fun _ member => by cases member
  · simp
  · intro found satisfied
    refine gives_after fun _ => gives_pure fun a member => satisfied a (List.mem_reverse.mp member)

theorem gives_membersFrom {member : String → β → Reader β} {start : β}
    (kept : ∀ name b, Q b → Gives (member name b) Q) (holds : Q start) : Gives (membersFrom member start) Q := by
  refine gives_bind (gives_exhaust (fun first b before => gives_after fun more => ?_) holds) fun b satisfied =>
    gives_after fun _ => gives_pure satisfied
  split
  · refine gives_after fun name => gives_bind (kept name b before) fun next after => gives_pure ?_
    rintro _ ⟨⟩
    exact after
  · exact gives_pure fun _ member => by cases member

/-- The members of an object have distinct names. -/
theorem gives_members {value : Reader α} (holds : Gives value P) :
    Gives (members value) fun found => (memberNames found).Nodup ∧ ∀ e ∈ found, P e.2 := by
  refine gives_bind (P := fun found : List (String × α) => ∀ e ∈ found, P e.2)
    (gives_membersFrom (fun name found satisfied => ?_) (List.forall_mem_nil _)) fun found satisfied => gives_pure ?_
  · exact gives_after fun _ => gives_bind holds fun a now => gives_pure (List.forall_mem_cons.mpr ⟨now, satisfied⟩)
  · exact ⟨nodup_collectMembers _, fun e member => satisfied e (List.mem_reverse.mp (mem_collectMembers e member))⟩

/-! ### Documents -/

theorem gives_finite (x : Binary64) : Gives (finite x) Number.Finite := by
  unfold finite
  split
  · exact gives_pure ‹_›
  · exact gives_failHere _

theorem gives_number : Gives number Number.Finite := by
  refine gives_after fun sign => ?_
  -- What follows the sign, and what follows the fraction, is the same with and without them.
  extract_lets afterSign
  have signed (negative : Bool) : Gives (afterSign negative) Number.Finite := by
    refine gives_after fun whole => gives_after fun next => ?_
    extract_lets afterFraction
    have value (fraction : Option (List Char)) : Gives (afterFraction fraction) Number.Finite := by
      refine gives_after fun mark => ?_
      split
      · refine gives_after fun exponent => ?_
        split
        · refine gives_pure ?_
          cases negative <;> rfl
        · exact gives_finite _
      · split
        · exact gives_finite _
        · split
          · exact gives_pure trivial
          · exact gives_finite _
    split
    · exact gives_after fun _ => value _
    · exact gives_after fun _ => value _
  split
  · exact gives_after fun _ => gives_after fun _ => signed _
  · exact gives_after fun _ => signed _

theorem gives_valueWithin (depth : Nat) : Gives (valueWithin depth) fun json => 0 < depth ∧ Fits (depth - 1) json := by
  induction depth with
  | zero => exact gives_failPast _
  | succ depth ih =>
    refine gives_after fun next => ?_
    split
    · exact gives_failPast _
    · exact gives_after fun _ => gives_after fun _ => gives_pure (by simp)
    · exact gives_after fun _ => gives_after fun _ => gives_pure (by simp)
    · exact gives_after fun _ => gives_after fun _ => gives_pure (by simp)
    · exact gives_map fun _ _ _ _ => by simp
    · refine gives_map (gives_nested fun start docs after done => ⟨Nat.succ_pos depth, ?_⟩)
      exact (fits_arr _ _).mpr (gives_items ih start docs after done)
    · refine gives_map (gives_nested fun start docs after done => ⟨Nat.succ_pos depth, ?_⟩)
      obtain ⟨distinct, inner⟩ := gives_members ih start docs after done
      exact (fits_obj _ _).mpr ⟨distinct, List.forall_mem_map.mpr inner⟩
    · split
      · refine gives_map fun start n after done => ⟨Nat.succ_pos depth, ?_⟩
        exact (fits_num _ _).mpr (gives_number start n after done)
      · exact gives_failPast _

end Reader

/-- A document that was read is well formed and nests within the room for it. -/
theorem parse_fits {text : String} {json : Json} (done : parse text = .ok json) : Fits (standardRoom - 1) json := by
  let start : Cursor := ⟨text.toList, ⟨1, 0⟩, standardRoom⟩
  obtain ⟨⟨_, after⟩, whole, rfl⟩ := (map_eq_ok Prod.fst _ json).mp done
  have read : Reader.Gives (do let json ← Reader.valueWithin standardRoom; Reader.finish; return json)
      (Fits (standardRoom - 1)) :=
    Reader.gives_bind (Reader.gives_valueWithin standardRoom) fun _ fits => Reader.gives_after fun _ =>
      Reader.gives_pure fits.2
  exact read start _ after whole

theorem parseNumber?_finite {text : String} {n : Number} (found : parseNumber? text = some n) : n.Finite := by
  unfold parseNumber? at found
  split at found
  · rename_i m cursor done
    split at found
    · obtain rfl := Option.some.inj found
      exact Reader.gives_number _ _ _ done
    · cases found
  · cases found

end StackCompiler.Json
