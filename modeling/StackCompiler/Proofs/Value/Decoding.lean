import StackCompiler.Proofs.Outcome
import StackCompiler.Proofs.Value.Layout
import StackCompiler.Proofs.Value.Nodes

/-!
Decoding taken apart. For each kind of value there is one document that it can come from
(`decodeAt_eq_arr`, `decodeAt_eq_obj`, `decodeAt_eq_fn`), and every child of a decoded
value is decoded from a document of its own (`decodeAt_child`, `decodeAt_fn_child`).
-/
namespace StackCompiler

namespace Function

theorem ofKey?_key (f : Function) : ofKey? f.key = some f := by
  cases f <;> decide

theorem key_injective {f g : Function} (same : f.key = g.key) : f = g := by
  have found := ofKey?_key f
  rw [same, ofKey?_key] at found
  exact (Option.some.inj found).symm

theorem ofKey?_eq_some_iff (key : String) (f : Function) : ofKey? key = some f ↔ f.key = key := by
  constructor
  · intro found
    unfold ofKey? at found
    simpa using List.find?_some found
  · rintro rfl
    exact ofKey?_key f

theorem ofKey?_eq_none_iff (key : String) : ofKey? key = none ↔ ∀ f : Function, f.key ≠ key := by
  rw [Option.eq_none_iff_forall_ne_some]
  exact forall_congr' fun f => not_congr (ofKey?_eq_some_iff key f)

end Function

namespace Value

variable {limit : Nat} {chain : List String} {path : FieldPath}

/-- When the one member of an object makes it a call. -/
theorem isCall_iff (key : String) (args : Json) :
    isCall key args = true ↔
      (∃ f : Function, f ≠ .condition ∧ f.key = key) ∨ Intrinsic.keyStart <+: key.toList ∨
        (key = Function.condition.key ∧ ∃ s, args = .str s) := by
  unfold isCall
  cases known : Function.ofKey? key with
  | none =>
    have unknown := (Function.ofKey?_eq_none_iff key).mp known
    simp only [List.isPrefixOf_iff_prefix]
    constructor
    · exact fun start => .inr (.inl start)
    · rintro (⟨f, -, same⟩ | start | ⟨same, -⟩)
      · exact absurd same (unknown f)
      · exact start
      · exact absurd same.symm (unknown .condition)
  | some f =>
    have same := (Function.ofKey?_eq_some_iff key f).mp known
    by_cases other : f = .condition
    · subst other same
      have notStart : ¬ Intrinsic.keyStart <+: Function.condition.key.toList := by decide
      have notOther : ¬ ∃ f : Function, f ≠ .condition ∧ f.key = Function.condition.key := by
        rintro ⟨f, different, key⟩
        cases f <;> first | exact absurd rfl different | exact absurd key (by decide)
      simp only [notStart, notOther, false_or, true_and]
      cases args <;> simp
    · have first : ∃ f : Function, f ≠ .condition ∧ f.key = key := ⟨f, other, same⟩
      simp only [first, true_or]

/-! ### What each kind of value comes from -/

/-- An object that is no call is decoded member by member. -/
theorem decodeAt_obj {docs : List (String × Json)}
    (plain : ∀ key args, docs = [(key, args)] → isCall key args = false) :
    decodeAt limit chain path (.obj docs) = .obj <$> decodeMembers limit chain path docs := by
  match docs, plain with
  | [], _ => simp [decodeAt]
  | [(key, args)], plain => simp [decodeAt, plain key args rfl]
  | _ :: _ :: _, _ => simp [decodeAt]

/-- A call is decoded by its function, or kept as it is where its function is not known. -/
theorem decodeAt_call {key : String} {args : Json} (call : isCall key args = true) :
    decodeAt limit chain path (.obj [(key, args)]) =
      if limit ≤ chain.length then throw (.tooDeep path limit (chain ++ [key]))
      else
        match Function.ofKey? key with
        | some f => .fn <$> decodeCall limit (chain ++ [key]) (path.key key) f (key, args)
        | none => pure (.fn (.verbatim key args)) := by
  rw [decodeAt]
  exact if_pos call

theorem decodeAt_call_ok {key : String} {args : Json} {v : Value} (isCall : isCall key args = true)
    (decoded : decodeAt limit chain path (.obj [(key, args)]) = .ok v) : ∃ call, v = .fn call := by
  rw [decodeAt_call isCall] at decoded
  split at decoded
  · simp at decoded
  · split at decoded
    · obtain ⟨call, -, rfl⟩ := (map_eq_ok _ _ _).mp decoded
      exact ⟨call, rfl⟩
    · exact ⟨_, ((pure_eq_ok _ _).mp decoded).symm⟩

/-- An object is decoded as a call or member by member. -/
theorem obj_call_or_plain (docs : List (String × Json)) :
    (∃ key args, docs = [(key, args)] ∧ isCall key args = true) ∨
      ∀ key args, docs = [(key, args)] → isCall key args = false := by
  by_cases call : ∃ key args, docs = [(key, args)] ∧ isCall key args = true
  · exact .inl call
  · refine .inr fun key args same => ?_
    rw [← Bool.not_eq_true]
    exact fun yes => call ⟨key, args, same, yes⟩

theorem decodeAt_eq_fn {json : Json} {call : Intrinsic Value}
    (decoded : decodeAt limit chain path json = .ok (.fn call)) :
    chain.length < limit ∧ ∃ key args, json = .obj [(key, args)] ∧ isCall key args = true ∧
      ((∃ f, f.key = key ∧ decodeCall limit (chain ++ [key]) (path.key key) f (key, args) = .ok call) ∨
        (∀ f : Function, f.key ≠ key) ∧ call = .verbatim key args) := by
  cases json with
  | obj docs =>
    rcases obj_call_or_plain docs with ⟨key, args, rfl, isCall⟩ | plain
    · rw [decodeAt_call isCall] at decoded
      split at decoded
      · simp at decoded
      · rename_i inside
        refine ⟨by omega, key, args, rfl, isCall, ?_⟩
        cases known : Function.ofKey? key with
        | some f =>
          simp only [known, map_eq_ok, fn.injEq, exists_eq_right] at decoded
          exact .inl ⟨f, (Function.ofKey?_eq_some_iff key f).mp known, decoded⟩
        | none =>
          simp only [known, pure_eq_ok, fn.injEq] at decoded
          exact .inr ⟨(Function.ofKey?_eq_none_iff key).mp known, decoded.symm⟩
    · simp [decodeAt_obj plain] at decoded
  | _ => simp [decodeAt] at decoded

theorem decodeAt_eq_obj {json : Json} {members : List (String × Value)}
    (decoded : decodeAt limit chain path json = .ok (.obj members)) :
    ∃ docs, json = .obj docs ∧ (∀ key args, docs = [(key, args)] → isCall key args = false) ∧
      decodeMembers limit chain path docs = .ok members := by
  cases json with
  | obj docs =>
    rcases obj_call_or_plain docs with ⟨key, args, rfl, isCall⟩ | plain
    · obtain ⟨call, same⟩ := decodeAt_call_ok isCall decoded
      cases same
    · simp only [decodeAt_obj plain, map_eq_ok, obj.injEq, exists_eq_right] at decoded
      exact ⟨docs, rfl, plain, decoded⟩
  | _ => simp [decodeAt] at decoded

/-- Lists and scalars come from documents of the same kind. -/
theorem decodeAt_eq_arr {json : Json} {items : List Value}
    (decoded : decodeAt limit chain path json = .ok (.arr items)) :
    ∃ docs, json = .arr docs ∧ decodeItems limit chain path 0 docs = .ok items := by
  cases json with
  | arr docs =>
    simp only [decodeAt, map_eq_ok, arr.injEq, exists_eq_right] at decoded
    exact ⟨docs, rfl, decoded⟩
  | obj docs =>
    rcases obj_call_or_plain docs with ⟨key, args, rfl, isCall⟩ | plain
    · obtain ⟨call, same⟩ := decodeAt_call_ok isCall decoded
      cases same
    · simp [decodeAt_obj plain] at decoded
  | _ => simp [decodeAt] at decoded

theorem decodeAt_eq_str {json : Json} {s : String}
    (decoded : decodeAt limit chain path json = .ok (.str s)) : json = .str s := by
  cases json with
  | str t => simpa [decodeAt] using decoded
  | obj docs =>
    rcases obj_call_or_plain docs with ⟨key, args, rfl, isCall⟩ | plain
    · obtain ⟨call, same⟩ := decodeAt_call_ok isCall decoded
      cases same
    · simp [decodeAt_obj plain] at decoded
  | _ => simp [decodeAt] at decoded

/-! ### Children of a decoded value -/

/-- `w` is what some document means inside the calls of `chain`. -/
def Decoded (limit : Nat) (chain : List String) (w : Value) : Prop :=
  ∃ path doc, decodeAt limit chain path doc = .ok w

theorem decodeItems_decoded {docs : List Json} {items : List Value} {position : Nat}
    (done : decodeItems limit chain path position docs = .ok items) :
    ∀ w ∈ items, Decoded limit chain w := by
  induction docs generalizing position items with
  | nil =>
    simp only [decodeItems, pure_eq_ok] at done
    simp [← done]
  | cons doc rest ih =>
    simp only [decodeItems, bind_eq_ok, pure_eq_ok] at done
    obtain ⟨value, first, values, others, rfl⟩ := done
    rw [List.forall_mem_cons]
    exact ⟨⟨_, doc, first⟩, ih others⟩

theorem decodeMembers_decoded {docs : List (String × Json)} {members : List (String × Value)}
    (done : decodeMembers limit chain path docs = .ok members) :
    ∀ w ∈ members.map (·.2), Decoded limit chain w := by
  induction docs generalizing members with
  | nil =>
    simp only [decodeMembers, pure_eq_ok] at done
    simp [← done]
  | cons doc rest ih =>
    simp only [decodeMembers, bind_eq_ok, pure_eq_ok] at done
    obtain ⟨value, first, values, others, rfl⟩ := done
    rw [List.map_cons, List.forall_mem_cons]
    exact ⟨⟨_, doc.2, first⟩, ih others⟩

theorem decodeParameters_decoded {docs : List (String × Json)} {parameters : List (String × Value)}
    (done : decodeParameters limit chain path docs = .ok parameters) :
    ∀ w ∈ parameters.map (·.2), Decoded limit chain w := by
  induction docs with
  | nil =>
    simp only [decodeParameters, pure_eq_ok] at done
    simp [← done]
  | cons doc rest ih =>
    unfold decodeParameters at done
    split at done
    · split at done
      · exact decodeMembers_decoded done
      · simp at done
    · exact ih done

/-- Every argument of a decoded call is decoded from a document, whichever function is called. -/
theorem decodeCall_decoded {f : Function} {entry : String × Json} {call : Intrinsic Value}
    (done : decodeCall limit chain path f entry = .ok call) :
    ∀ w ∈ call.argValues, Decoded limit chain w := by
  cases f.laidOut entry with
  | ref | listed | computed | template | condition =>
    simp only [decodeCall, pure_eq_ok] at done
    simp [← done, Intrinsic.argValues, Intrinsic.args]
  | dotted _ found =>
    simp only [decodeCall, found, pure_eq_ok] at done
    simp [← done, Intrinsic.argValues, Intrinsic.args]
  | bindings =>
    simp only [decodeCall, map_eq_ok] at done
    obtain ⟨bindings, decoded, rfl⟩ := done
    simpa [Intrinsic.argValues, Intrinsic.args] using decodeMembers_decoded decoded
  | and | or =>
    simp only [decodeCall, map_eq_ok] at done
    obtain ⟨conditions, decoded, rfl⟩ := done
    simpa [Intrinsic.argValues, Intrinsic.args] using decodeItems_decoded decoded
  | transform _ found =>
    simp only [decodeCall, found, map_eq_ok] at done
    obtain ⟨parameters, decoded, rfl⟩ := done
    simpa [Intrinsic.argValues, Intrinsic.args] using decodeParameters_decoded decoded
  | join | not | split | base64 | importValue | getAZs =>
    simp only [decodeCall, map_eq_ok] at done
    obtain ⟨a, first, rfl⟩ := done
    simpa [Intrinsic.argValues, Intrinsic.args] using ⟨_, _, first⟩
  | select | cond | equals =>
    simp only [decodeCall, bind_eq_ok, pure_eq_ok] at done
    obtain ⟨a, first, b, second, rfl⟩ := done
    simpa [Intrinsic.argValues, Intrinsic.args] using And.intro ⟨_, _, first⟩ ⟨_, _, second⟩
  | cidr | findInMap =>
    simp only [decodeCall, bind_eq_ok, pure_eq_ok] at done
    obtain ⟨a, first, b, second, c, third, rfl⟩ := done
    simpa [Intrinsic.argValues, Intrinsic.args] using And.intro ⟨_, _, first⟩ (And.intro ⟨_, _, second⟩ ⟨_, _, third⟩)
  | refused _ refuses => exact absurd done (refuses.value_ne_ok _)

/-- The only known function whose call may be kept as written is the one that reads attributes. -/
theorem decodeCall_eq_verbatim {f : Function} {entry : String × Json} {key : String} {args : Json}
    (done : decodeCall limit chain path f entry = .ok (.verbatim key args)) :
    key = Function.getAtt.key ∧ ∃ resource members, args = .arr [.str resource, .obj members] := by
  cases f.laidOut entry with
  | computed =>
    simp only [decodeCall, pure_eq_ok, Intrinsic.verbatim.injEq] at done
    exact ⟨done.1.symm, _, _, done.2.symm⟩
  | dotted _ found | transform _ found => simp [decodeCall, found] at done
  | refused _ refuses => exact absurd done (refuses.value_ne_ok _)
  | _ => simp [decodeCall] at done

/-- The children of a value that is no call are decoded inside the same calls. -/
theorem decodeAt_child {json : Json} {v w : Value} (decoded : decodeAt limit chain path json = .ok v)
    (plain : v.asFn? = none) (child : Child w v) : Decoded limit chain w := by
  cases v with
  | arr items =>
    obtain ⟨docs, rfl, done⟩ := decodeAt_eq_arr decoded
    exact decodeItems_decoded done w child
  | obj members =>
    obtain ⟨docs, rfl, -, done⟩ := decodeAt_eq_obj decoded
    exact decodeMembers_decoded done w child
  | fn call => simp [asFn?] at plain
  | null | bool _ | num _ | str _ => exact child.elim

/-- The arguments of a call are decoded inside one call more, and only below the limit. -/
theorem decodeAt_fn_child {json : Json} {call : Intrinsic Value} {w : Value}
    (decoded : decodeAt limit chain path json = .ok (.fn call)) (child : Child w (.fn call)) :
    ∃ key, Decoded limit (chain ++ [key]) w := by
  obtain ⟨-, key, args, rfl, -, ⟨f, -, done⟩ | ⟨-, rfl⟩⟩ := decodeAt_eq_fn decoded
  · exact ⟨key, decodeCall_decoded done w child⟩
  · simp [Child, Intrinsic.argValues, Intrinsic.args] at child

end Value

end StackCompiler
