import StackCompiler.Json.Record
import StackCompiler.Proofs.Json.Reading

/-!
What reading a record gives. What holds of the record that reading starts from, and is kept
by every field that is put in, holds of the record that is read (`gives_record`).
-/
namespace StackCompiler.Json

namespace Reader

variable {α σ : Type} {P : α → Prop} {Q : σ → Prop}

theorem gives_failType (expected : String) : Gives (failType expected) P := by
  refine gives_after fun next => ?_
  extract_lets report
  have fails (found : Found) : Gives (report found) P := gives_failHere _
  have keyword (letters : List Char) (found : Found) :
      Gives (do advance; word letters; let found ← pure found; report found) P :=
    gives_after fun _ => gives_after fun _ => gives_after fun _ => fails _
  split
  · exact keyword _ _
  · exact keyword _ _
  · exact keyword _ _
  · exact gives_after fun _ => fails _
  · exact gives_after fun _ => fails _
  · exact gives_after fun _ => fails _
  · split
    · exact gives_after fun _ => fails _
    · exact gives_after fun _ => fails _
  · exact gives_after fun _ => fails _

theorem gives_refuse (message : String) : Gives (refuse message) P := by
  unfold refuse
  split
  · split
    · exact gives_failHere _
    · rintro start a after ⟨⟩
  · exact gives_failHere _

theorem gives_nullable {reader : Reader α} (holds : Gives reader P) : Gives (nullable reader) fun o => ∀ a ∈ o, P a := by
  refine gives_after fun next => ?_
  split
  · exact gives_after fun _ => gives_after fun _ => gives_pure fun _ member => by cases member
  · refine gives_map fun start a after done => ?_
    simpa using holds start a after done

theorem gives_sequenceOf {item : Reader α} (holds : Gives item P) :
    Gives (sequenceOf item) fun found => ∀ a ∈ found, P a := by
  refine gives_after fun next => ?_
  split
  · exact gives_nested (gives_items holds)
  · exact gives_failType _

theorem gives_mapOf {value : Reader α} (holds : Gives value P) :
    Gives (mapOf value) fun found => (memberNames found).Nodup ∧ ∀ e ∈ found, P e.2 := by
  refine gives_after fun next => ?_
  split
  · exact gives_nested (gives_members holds)
  · exact gives_failType _

/-! ### Fields -/

/-- What a field puts into a record keeps `Q`. -/
def Keeps (Q : σ → Prop) (f : Field σ) : Prop := Gives f.read fun change => ∀ s, Q s → Q (change s)

theorem keeps_put {reader : Reader α} {put : α → σ → σ} (holds : Gives reader P)
    (kept : ∀ a s, P a → Q s → Q (put a s)) : Gives (put <$> reader) fun change => ∀ s, Q s → Q (change s) :=
  gives_map fun start a after done s before => kept a s (holds start a after done) before

/-- A field whose value does not matter. -/
theorem keeps_any {reader : Reader α} {put : α → σ → σ} (kept : ∀ a s, Q s → Q (put a s)) :
    Gives (put <$> reader) fun change => ∀ s, Q s → Q (change s) :=
  keeps_put (P := fun _ => True) (fun _ _ _ _ => trivial) fun a s _ => kept a s

theorem gives_recordMembers {fields : List (Field σ)} {start : σ} (kept : ∀ f ∈ fields, Keeps Q f) (holds : Q start) :
    Gives (recordMembers fields start) Q := by
  refine gives_bind (P := fun state : σ × List String => Q state.1)
    (gives_membersFrom (fun name state before => ?_) holds) fun state satisfied => ?_
  · dsimp only
    split
    · exact gives_after fun _ => gives_after fun _ => gives_pure before
    case h_2 f found =>
      split
      · exact gives_failHere _
      · refine gives_after fun _ => gives_bind (kept f (List.mem_of_find?_eq_some found)) fun change keeps => ?_
        exact gives_pure (keeps state.1 before)
  · dsimp only
    split
    · exact gives_failHere _
    · exact gives_pure satisfied

theorem gives_recordItems {fields : List (Field σ)} {start : σ} (size : String) (position : Nat)
    (kept : ∀ f ∈ fields, Keeps Q f) (holds : Q start) : Gives (recordItems size position fields start) Q := by
  induction fields generalizing start position with
  | nil => exact gives_pure holds
  | cons f rest ih =>
    obtain ⟨first, later⟩ := List.forall_mem_cons.mp kept
    refine gives_after fun more => ?_
    split
    · exact gives_bind first fun change keeps => ih (position + 1) later (keeps start holds)
    · split
      · exact ih (position + 1) later holds
      · exact gives_failHere _

/-- What is read is a record of which `Q` holds, if `Q` holds at the start and every field keeps it. -/
theorem gives_record {title : String} {fields : List (Field σ)} {start : σ} (kept : ∀ f ∈ fields, Keeps Q f)
    (holds : Q start) : Gives (record title fields start) Q := by
  refine gives_after fun next => ?_
  split
  · exact gives_nested (gives_recordMembers kept holds)
  · exact gives_nested (gives_bind (gives_recordItems _ 0 kept holds) fun _ satisfied =>
      gives_after fun _ => gives_pure satisfied)
  · exact gives_failType _

end Reader

theorem readWhole_gives {α : Type} {P : α → Prop} {reader : Reader α} {room : Nat} {text : String} {a : α}
    (holds : Reader.Gives reader P) (done : readWhole room reader text = .ok a) : P a := by
  obtain ⟨⟨_, after⟩, whole, rfl⟩ := (map_eq_ok Prod.fst _ a).mp done
  have read : Reader.Gives (do let a ← reader; Reader.finish; return a) P :=
    Reader.gives_bind holds fun _ satisfied => Reader.gives_after fun _ => Reader.gives_pure satisfied
  exact read _ _ after whole

end StackCompiler.Json
