import StackCompiler.Proofs.Value.CallChain
import StackCompiler.Value.Decoder

/-!
A decoder is after each document as it was before it (`decodeAt_keeps`), whether or not the
document could be decoded: every step either leaves the keys of the calls around it alone or adds
one and takes it away again. So nothing of one document shows in the results for the next.
-/
namespace StackCompiler

namespace Decoder

/-! ### Steps that leave the decoder as it was -/

section Keeps

variable {α β : Type} {d : Decoder}

/-- From `d`, a step ends with `r` and leaves the decoder as it was. -/
def Keeps (d : Decoder) (x : Decoding α) (r : Except DecodeError α) : Prop := x.run.run d = (r, d)

namespace Keeps

theorem pure (a : α) : Keeps d (pure a) (pure a) := rfl

theorem throw (e : DecodeError) : Keeps d (throw e : Decoding α) (throw e) := rfl

theorem bind {x : Decoding α} {r : Except DecodeError α} {f : α → Decoding β} {s : α → Except DecodeError β}
    (first : Keeps d x r) (next : ∀ a, Keeps d (f a) (s a)) : Keeps d (x >>= f) (r >>= s) := by
  unfold Keeps at first
  rw [Keeps, ExceptT.run_bind, StateT.run_bind, first]
  cases r with
  | ok a => exact next a
  | error e => rfl

theorem map {x : Decoding α} {r : Except DecodeError α} (f : α → β) (keeps : Keeps d x r) : Keeps d (f <$> x) (f <$> r) := by
  unfold Keeps at keeps
  rw [Keeps, ExceptT.run_map, StateT.run_map, keeps]
  rfl

end Keeps

theorem pop_push (d : Decoder) (key : String) : (d.push key).pop = d := by
  simp [push, pop]

/-- The key of a call is taken away again, whatever happens inside. -/
theorem enter_keeps {key : String} {path : FieldPath} {call : Decoding (Intrinsic Value)}
    {r : Except DecodeError (Intrinsic Value)} (inner : Keeps (d.push key) call r) :
    Keeps d (enter key path call)
      (if d.limit ≤ d.chain.length then throw (.tooDeep path d.limit (d.chain ++ [key])) else .fn <$> r) := by
  have ran : call (d.push key) = (r, d.push key) := inner
  show (if d.limit ≤ d.chain.length then _ else (Value.fn <$> (call (d.push key)).1, (call (d.push key)).2.pop)) = _
  rw [ran, pop_push]
  split <;> rfl

/-- Every decoder gives for a document what it means inside the calls that the decoder is in, and is
    as it was after that. -/
def KeepsAt (json : Json) : Prop :=
  ∀ (d : Decoder) (path : FieldPath), Keeps d (decodeAt path json) (Value.decodeAt d.limit d.chain path json)

theorem decodeItems_keeps {items : List Json} (each : ∀ w ∈ items, KeepsAt w) (path : FieldPath) (position : Nat) :
    Keeps d (decodeItems path position items) (Value.decodeItems d.limit d.chain path position items) := by
  induction items generalizing position with
  | nil =>
    rw [decodeItems, Value.decodeItems]
    exact .pure _
  | cons item rest ih =>
    rw [List.forall_mem_cons] at each
    rw [decodeItems, Value.decodeItems]
    exact .bind (each.1 d _) fun _ => .bind (ih each.2 _) fun _ => .pure _

theorem decodeMembers_keeps {members : List (String × Json)} (each : ∀ w ∈ members.map (·.2), KeepsAt w)
    (path : FieldPath) : Keeps d (decodeMembers path members) (Value.decodeMembers d.limit d.chain path members) := by
  induction members with
  | nil =>
    rw [decodeMembers, Value.decodeMembers]
    exact .pure _
  | cons member rest ih =>
    rw [List.map_cons, List.forall_mem_cons] at each
    rw [decodeMembers, Value.decodeMembers]
    exact .bind (each.1 d _) fun _ => .bind (ih each.2) fun _ => .pure _

theorem decodeParameters_keeps {members : List (String × Json)} (each : ∀ w ∈ parameterDocs members, KeepsAt w)
    (path : FieldPath) :
    Keeps d (decodeParameters path members) (Value.decodeParameters d.limit d.chain path members) := by
  induction members with
  | nil =>
    rw [decodeParameters, Value.decodeParameters]
    exact .pure _
  | cons member rest ih =>
    obtain ⟨name, json⟩ := member
    unfold decodeParameters Value.decodeParameters
    unfold parameterDocs at each ih
    by_cases named : name = "Parameters"
    · subst named
      rw [if_pos rfl, if_pos rfl]
      rw [List.lookup_cons_self] at each
      cases json with
      | obj parameters => exact decodeMembers_keeps each _
      | _ => exact .throw _
    · have other : ("Parameters" == name) = false := by simpa using Ne.symm named
      rw [if_neg named, if_neg named]
      rw [List.lookup_cons, other] at each
      exact ih each

theorem decodeCall_keeps {f : Function} {entry : String × Json} (each : ∀ w ∈ f.argumentDocs entry.2, KeepsAt w)
    (path : FieldPath) : Keeps d (decodeCall path f entry) (Value.decodeCall d.limit d.chain path f entry) := by
  cases f.laidOut entry with
  | ref | listed | computed | template | condition => exact .pure _
  | dotted _ found =>
    simp only [decodeCall, Value.decodeCall, found]
    exact .pure _
  | bindings => exact .map _ (decodeMembers_keeps each _)
  | and | or => exact .map _ (decodeItems_keeps each _ _)
  | transform _ found =>
    simp only [Function.argumentDocs, found] at each
    simp only [decodeCall, Value.decodeCall, found]
    exact .map _ (decodeParameters_keeps each _)
  | join | not | split | base64 | importValue | getAZs => exact .map _ (each _ (.head _) d _)
  | select | cond | equals =>
    exact .bind (each _ (.head _) d _) fun _ => .bind (each _ (.tail _ (.head _)) d _) fun _ => .pure _
  | cidr | findInMap =>
    exact .bind (each _ (.head _) d _) fun _ => .bind (each _ (.tail _ (.head _)) d _) fun _ =>
      .bind (each _ (.tail _ (.tail _ (.head _))) d _) fun _ => .pure _
  | refused _ refuses =>
    rw [refuses.decoder, refuses.value]
    exact .throw _

theorem decodeAt_obj {members : List (String × Json)} {path : FieldPath}
    (plain : ∀ key args, members = [(key, args)] → Value.isCall key args = false) :
    decodeAt path (.obj members) = .obj <$> decodeMembers path members := by
  match members, plain with
  | [], _ => simp [decodeAt]
  | [(key, args)], plain => simp [decodeAt, plain key args rfl]
  | _ :: _ :: _, _ => simp [decodeAt]

theorem decodeAt_keeps (json : Json) : KeepsAt json := by
  induction json using Json.below_induction with
  | step json ih =>
    intro d path
    cases json with
    | null | bool _ | num _ | str _ =>
      rw [decodeAt, Value.decodeAt]
      exact .pure _
    | arr items =>
      rw [decodeAt, Value.decodeAt]
      exact .map _ (decodeItems_keeps (fun w member => ih w (.single member)) path 0)
    | obj members =>
      rcases Value.obj_call_or_plain members with ⟨key, args, rfl, isCall⟩ | plain
      · rw [Value.decodeAt_call isCall, decodeAt, if_pos isCall]
        cases Function.ofKey? key with
        | some f =>
          have arguments (w : Json) (argument : w ∈ f.argumentDocs args) : KeepsAt w :=
            ih w (.tail' (f.argumentDocs_occurs argument) (.head _))
          exact enter_keeps (decodeCall_keeps arguments _)
        | none => exact enter_keeps (.pure _)
      · rw [Value.decodeAt_obj plain, decodeAt_obj plain]
        exact .map _ (decodeMembers_keeps (fun w member => ih w (.single member)) path)

end Keeps

/-! ### One document after the other -/

theorem decode_eq (d : Decoder) (path : FieldPath) (json : Json) :
    d.decode path json = (Value.decodeAt d.limit d.chain path json, d) :=
  decodeAt_keeps json d path

theorem decodeEach_eq (d : Decoder) (calls : List (FieldPath × Json)) :
    d.decodeEach calls = (calls.map fun call => Value.decodeAt d.limit d.chain call.1 call.2, d) := by
  induction calls with
  | nil => rfl
  | cons call rest ih => simp only [decodeEach, decode_eq, ih, List.map_cons]

/-- One decoder gives for each of many documents what a decoder of its own would give, and is in the end
    as it was made, also after documents that it could not decode. A document that it decodes nests
    at most as many calls as the limit says; one that it finds too deep has one more inside one
    another, and their keys are what it reports; and it finds no other too deep. -/
theorem decodeEach_withLimit (limit : Nat) (calls : List (FieldPath × Json)) :
    (withLimit limit).decodeEach calls =
        (calls.map fun call => ((withLimit limit).decode call.1 call.2).1, withLimit limit) ∧
      ∀ (path : FieldPath) (json : Json),
        ((withLimit limit).decode path json).1 = Value.decode limit path json ∧
        (∀ v, Value.decode limit path json = .ok v →
          v.callDepth ≤ limit ∧ ∀ keys, Value.CallsNest keys json → keys.length ≤ limit) ∧
        (∀ place most keys, Value.decode limit path json = .error (.tooDeep place most keys) →
          most = limit ∧ keys.length = limit + 1 ∧ Value.CallsNest keys json) ∧
        ((¬ ∃ keys, keys.length = limit + 1 ∧ Value.CallsNest keys json) →
          ∀ place most keys, Value.decode limit path json ≠ .error (.tooDeep place most keys)) := by
  have tooDeep {path place : FieldPath} {json : Json} {most : Nat} {keys : List String}
      (failed : Value.decode limit path json = .error (.tooDeep place most keys)) :
      most = limit ∧ keys.length = limit + 1 ∧ Value.CallsNest keys json := by
    obtain ⟨same, length, inner, rfl, nest⟩ := Value.decodeAt_tooDeep json (Nat.zero_le limit) failed
    exact ⟨same, length, nest⟩
  refine ⟨?_, fun path json => ⟨?_, fun v decoded => ⟨?_, fun keys nest => ?_⟩, fun _ _ _ => tooDeep, ?_⟩⟩
  · simp only [decodeEach_eq, decode_eq]
  · rw [decode_eq]
    rfl
  · exact (Value.decoded_canonical v ⟨path, json, decoded⟩).2
  · have bounded := nest.bounded decoded
    rwa [List.length_nil, Nat.zero_add] at bounded
  · intro shallow place most keys failed
    obtain ⟨-, length, nest⟩ := tooDeep failed
    exact shallow ⟨keys, length, nest⟩

/-- The zones of a region that is itself looked up nest two calls. -/
def zonesOf (region : String) : Json :=
  .obj [("Fn::GetAZs", .obj [("Ref", .str region)])]

theorem decodeEach_zones :
    (withLimit 1).decodeEach [(.root, zonesOf "AWS::Region"), (.root, .obj [("Ref", .str "AWS::Region")])] =
        ([.error (.tooDeep ((FieldPath.root.key "Fn::GetAZs").key "Region") 1 ["Fn::GetAZs", "Ref"]),
          .ok (.fn (.ref "AWS::Region"))], withLimit 1) ∧
      Value.CallsNest ["Fn::GetAZs", "Ref"] (zonesOf "AWS::Region") ∧
      ¬ ∃ keys, keys.length = 2 ∧ Value.CallsNest keys (.obj [("Ref", .str "AWS::Region")]) := by
  obtain ⟨each, about⟩ :=
    decodeEach_withLimit 1 [(.root, zonesOf "AWS::Region"), (.root, .obj [("Ref", .str "AWS::Region")])]
  refine ⟨each.trans rfl, ((about .root (zonesOf "AWS::Region")).2.2.1 _ _ _ rfl).2.2, ?_⟩
  rintro ⟨keys, length, nest⟩
  have bounded := ((about .root (.obj [("Ref", .str "AWS::Region")])).2.1 _ rfl).2 keys nest
  omega

end Decoder

end StackCompiler
