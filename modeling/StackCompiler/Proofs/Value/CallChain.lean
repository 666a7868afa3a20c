import StackCompiler.Proofs.Json.Nodes
import StackCompiler.Proofs.Members
import StackCompiler.Proofs.Value.RoundTrip

/-!
Calls inside calls. Decoding a call decodes its arguments (`Function.argumentDocs`) and nothing
else of it, so that calls count as nested where each is in an argument of the one before
(`CallsNest`). A document is too deep only where it nests more calls than the limit allows, and
the report lists these (`decodeAt_tooDeep`); and none that nests more can be decoded
(`CallsNest.bounded`).
-/
namespace StackCompiler

/-! ### Arguments are nodes of the call -/

theorem Json.occurs_of_mem_values {members : List (String × Json)} {json w : Json} (member : w ∈ members.map (·.2))
    (inside : Child (.obj members) json) : Occurs w json := by
  have child : Child w (.obj members) := member
  exact .trans (.single child) (.single inside)

theorem parameterDocs_occurs {members : List (String × Json)} {w : Json} (argument : w ∈ parameterDocs members) :
    Json.Occurs w (.obj members) := by
  unfold parameterDocs at argument
  split at argument
  next parameters found =>
    have inside : Json.Child (.obj parameters) (.obj members) := List.mem_map_of_mem (mem_of_lookup found)
    exact Json.occurs_of_mem_values argument inside
  next => cases argument

theorem Function.argumentDocs_occurs {f : Function} {args w : Json} (argument : w ∈ f.argumentDocs args) :
    Json.Occurs w args := by
  cases f.laidOut (f.key, args) with
  | bindings _ template bindings =>
    have inside : Json.Child (.obj bindings) (.arr [.str template, .obj bindings]) := .tail _ (.head _)
    exact Json.occurs_of_mem_values argument inside
  | join | cond | split => exact .single (List.mem_cons_of_mem _ argument)
  | select | equals | and | or | not | cidr | findInMap => exact .single argument
  | base64 | importValue | getAZs =>
    rw [List.mem_singleton.mp argument]
    exact .refl
  | transform _ found =>
    simp only [argumentDocs, found] at argument
    exact parameterDocs_occurs argument
  | refused _ refuses =>
    rw [refuses.unread] at argument
    cases argument
  | ref | listed | computed | dotted | template | condition => cases argument

namespace Value

/-- A document has calls with these keys, each inside an argument of the one before and with no
    other call between the two. -/
inductive CallsNest : List String → Json → Prop
  | call {key : String} {args : Json} (isCall : isCall key args = true) : CallsNest [key] (.obj [(key, args)])
  | around {f : Function} {args w : Json} {keys : List String} (isCall : isCall f.key args = true)
      (argument : w ∈ f.argumentDocs args) (inner : CallsNest keys w) : CallsNest (f.key :: keys) (.obj [(f.key, args)])
  | item {items : List Json} {w : Json} {keys : List String} (member : w ∈ items) (inner : CallsNest keys w) :
      CallsNest keys (.arr items)
  | member {members : List (String × Json)} {w : Json} {keys : List String}
      (plain : ∀ key args, members = [(key, args)] → isCall key args = false) (member : w ∈ members.map (·.2))
      (inner : CallsNest keys w) : CallsNest keys (.obj members)

/-! ### What the arguments of a call decide -/

section Settles

variable {limit : Nat} {chain : List String} {path : FieldPath} {α β : Type}

/-- How the decoding of `docs` ends: with a result if each can be decoded, and otherwise with a wrong
    layout around them or with the failure of one. -/
def Settles (limit : Nat) (chain : List String) (docs : List Json) : Except DecodeError α → Prop
  | .ok _ => ∀ w ∈ docs, ∃ path v, decodeAt limit chain path w = .ok v
  | .error e => (∃ key path expected, e = .malformed key path expected) ∨
      ∃ w ∈ docs, ∃ path, decodeAt limit chain path w = .error e

namespace Settles

variable {docs more : List Json} {r : Except DecodeError α}

theorem pure (a : α) : Settles limit chain [] (pure a) := List.forall_mem_nil _

theorem malformed (docs : List Json) (key : String) (path : FieldPath) (expected : String) :
    Settles limit chain docs (throw (.malformed key path expected) : Except DecodeError α) :=
  .inl ⟨key, path, expected, rfl⟩

theorem one (path : FieldPath) (w : Json) : Settles limit chain [w] (decodeAt limit chain path w) := by
  cases decoded : decodeAt limit chain path w with
  | ok v => exact List.forall_mem_singleton.mpr ⟨path, v, decoded⟩
  | error e => exact .inr ⟨w, List.mem_singleton.mpr rfl, path, decoded⟩

theorem map (f : α → β) (settles : Settles limit chain docs r) : Settles limit chain docs (f <$> r) := by
  cases r with
  | ok a => exact settles
  | error e => exact settles

theorem bind {f : α → Except DecodeError β} (first : Settles limit chain docs r) (next : ∀ a, Settles limit chain more (f a)) :
    Settles limit chain (docs ++ more) (r >>= f) := by
  cases r with
  | error e =>
    refine first.imp_right ?_
    rintro ⟨w, member, failed⟩
    exact ⟨w, List.mem_append_left more member, failed⟩
  | ok a =>
    show Settles limit chain (docs ++ more) (f a)
    have later := next a
    cases result : f a with
    | ok b =>
      rw [result] at later
      exact List.forall_mem_append.mpr ⟨first, later⟩
    | error e =>
      rw [result] at later
      refine later.imp_right ?_
      rintro ⟨w, member, failed⟩
      exact ⟨w, List.mem_append_right docs member, failed⟩

/-- Nothing is decoded after what is put together. -/
theorem bind_pure {f : α → β} (settles : Settles limit chain docs r) : Settles limit chain docs (do return f (← r)) := by
  have both := settles.bind fun a => Settles.pure (f a)
  rwa [List.append_nil] at both

end Settles

theorem decodeItems_settles (items : List Json) (path : FieldPath) (position : Nat) :
    Settles limit chain items (decodeItems limit chain path position items) := by
  induction items generalizing position with
  | nil => exact .pure []
  | cons item rest ih =>
    rw [decodeItems]
    exact .bind (.one _ item) fun _ => .bind_pure (ih _)

theorem decodeMembers_settles (members : List (String × Json)) (path : FieldPath) :
    Settles limit chain (members.map (·.2)) (decodeMembers limit chain path members) := by
  induction members with
  | nil => exact .pure []
  | cons member rest ih =>
    rw [decodeMembers]
    exact .bind (.one _ member.2) fun _ => .bind_pure ih

theorem decodeParameters_settles (members : List (String × Json)) (path : FieldPath) :
    Settles limit chain (parameterDocs members) (decodeParameters limit chain path members) := by
  unfold parameterDocs
  induction members with
  | nil => exact .pure []
  | cons member rest ih =>
    obtain ⟨name, json⟩ := member
    unfold decodeParameters
    by_cases named : name = "Parameters"
    · subst named
      rw [if_pos rfl, List.lookup_cons_self]
      cases json with
      | obj parameters => exact decodeMembers_settles parameters _
      | _ => exact .malformed _ _ _ _
    · have other : ("Parameters" == name) = false := by simpa using Ne.symm named
      rw [if_neg named, List.lookup_cons, other]
      exact ih

/-- A call is decoded through its arguments, whichever function is called. -/
theorem decodeCall_settles (f : Function) (entry : String × Json) (path : FieldPath) :
    Settles limit chain (f.argumentDocs entry.2) (decodeCall limit chain path f entry) := by
  cases f.laidOut entry with
  | ref | listed | computed | template | condition => exact .pure _
  | dotted _ found =>
    simp only [decodeCall, found]
    exact .pure _
  | bindings => exact .map _ (decodeMembers_settles _ _)
  | and | or => exact .map _ (decodeItems_settles _ _ _)
  | transform _ found =>
    simp only [decodeCall, Function.argumentDocs, found]
    exact .map _ (decodeParameters_settles _ path)
  | join | not | split | base64 | importValue | getAZs => exact .map _ (.one _ _)
  | select | cond | equals => exact .bind (.one _ _) fun _ => .bind_pure (.one _ _)
  | cidr | findInMap => exact .bind (.one _ _) fun _ => .bind (.one _ _) fun _ => .bind_pure (.one _ _)
  | refused _ refuses =>
    rw [refuses.value]
    exact .malformed _ _ _ _

end Settles

/-! ### Too deep -/

section

variable {limit : Nat} {α : Type} {chain : List String} {docs : List Json} {r : Except DecodeError α}

theorem Settles.decoded {a : α} (settles : Settles limit chain docs r) (ok : r = .ok a) :
    ∀ w ∈ docs, ∃ path v, decodeAt limit chain path w = .ok v := by
  subst ok
  exact settles

theorem Settles.tooDeep {place : FieldPath} {most : Nat} {keys : List String} (settles : Settles limit chain docs r)
    (failed : r = .error (.tooDeep place most keys)) :
    ∃ w ∈ docs, ∃ path, decodeAt limit chain path w = .error (.tooDeep place most keys) := by
  subst failed
  rcases settles with ⟨key, path, expected, same⟩ | failed
  · cases same
  · exact failed

/-- Where a document is too deep, the report has the limit and the keys of nested calls: those that
    were being decoded and then, inside the document, as many as go one above the limit. -/
theorem decodeAt_tooDeep (json : Json) : ∀ {chain : List String} {path place : FieldPath} {most : Nat} {keys : List String},
    chain.length ≤ limit → decodeAt limit chain path json = .error (.tooDeep place most keys) →
      most = limit ∧ keys.length = limit + 1 ∧ ∃ inner, keys = chain ++ inner ∧ CallsNest inner json := by
  -- An argument of a call may be any node below it, so the induction is over these.
  induction json using Json.below_induction with
  | step json ih =>
    intro chain path place most keys within failed
    cases json with
    | null | bool _ | num _ | str _ =>
      rw [decodeAt] at failed
      cases failed
    | arr items =>
      rw [decodeAt, map_eq_error] at failed
      obtain ⟨w, member, path, failed⟩ := (decodeItems_settles items path 0).tooDeep failed
      obtain ⟨same, length, inner, split, nest⟩ := ih w (.single member) within failed
      exact ⟨same, length, inner, split, .item member nest⟩
    | obj members =>
      rcases obj_call_or_plain members with ⟨key, args, rfl, isCall⟩ | plain
      · rw [decodeAt_call isCall] at failed
        split at failed
        next full =>
          cases failed
          have length : (chain ++ [key]).length = limit + 1 := by
            rw [List.length_append, Nat.le_antisymm within full, List.length_singleton]
          exact ⟨rfl, length, [key], rfl, .call isCall⟩
        next free =>
          split at failed
          next f known =>
            obtain rfl := (Function.ofKey?_eq_some_iff key f).mp known
            have failed := (map_eq_error _ _ _).mp failed
            obtain ⟨w, argument, path, failed⟩ := (decodeCall_settles f _ _).tooDeep failed
            have below : Relation.TransGen Json.Child w (.obj [(f.key, args)]) :=
              .tail' (f.argumentDocs_occurs argument) (.head _)
            have within : (chain ++ [f.key]).length ≤ limit := by
              rw [List.length_append, List.length_singleton]
              omega
            obtain ⟨same, length, inner, split, nest⟩ := ih w below within failed
            rw [List.append_assoc] at split
            exact ⟨same, length, f.key :: inner, split, .around isCall argument nest⟩
          next => cases failed
      · rw [decodeAt_obj plain, map_eq_error] at failed
        obtain ⟨w, member, path, failed⟩ := (decodeMembers_settles members path).tooDeep failed
        obtain ⟨same, length, inner, split, nest⟩ := ih w (.single member) within failed
        exact ⟨same, length, inner, split, .member plain member nest⟩

/-- A document that has been decoded nests no more calls than `chain` leaves of the limit. -/
theorem CallsNest.bounded {keys : List String} {json : Json} (nest : CallsNest keys json) :
    ∀ {chain : List String} {path : FieldPath} {v : Value}, decodeAt limit chain path json = .ok v →
      chain.length + keys.length ≤ limit := by
  induction nest with
  | call isCall =>
    intro chain path v decoded
    rw [decodeAt_call isCall] at decoded
    split at decoded
    next => cases decoded
    next free => exact Nat.lt_of_not_le free
  | @around f args w keys isCall argument nest ih =>
    intro chain path v decoded
    rw [decodeAt_call isCall, Function.ofKey?_key] at decoded
    split at decoded
    next => cases decoded
    next free =>
      obtain ⟨call, decoded, -⟩ := (map_eq_ok _ _ _).mp decoded
      obtain ⟨path, v, decoded⟩ := (decodeCall_settles f _ _).decoded decoded w argument
      have inner := ih decoded
      rw [List.length_append, List.length_singleton] at inner
      rw [List.length_cons]
      omega
  | item member nest ih =>
    intro chain path v decoded
    rw [decodeAt] at decoded
    obtain ⟨values, decoded, -⟩ := (map_eq_ok _ _ _).mp decoded
    obtain ⟨path, v, decoded⟩ := (decodeItems_settles _ path 0).decoded decoded _ member
    exact ih decoded
  | member plain member nest ih =>
    intro chain path v decoded
    rw [decodeAt_obj plain] at decoded
    obtain ⟨values, decoded, -⟩ := (map_eq_ok _ _ _).mp decoded
    obtain ⟨path, v, decoded⟩ := (decodeMembers_settles _ path).decoded decoded _ member
    exact ih decoded

end

end Value

end StackCompiler
