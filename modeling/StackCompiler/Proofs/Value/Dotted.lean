import StackCompiler.Proofs.Json.Dotted
import StackCompiler.Proofs.Text.Cuts
import StackCompiler.Proofs.Value.RoundTrip

/-!
Values whose wire form has its attributes dotted. Such a form is read again, and it gives
the same value exactly if the dots say where each resource ends, and stand only in
references that are calls (`exists_reread`).
-/
namespace StackCompiler

/-! ### One attribute -/

/-- The dotted text of an attribute names an attribute, the same one if the resource has no dot. -/
theorem AttrRef.exists_dotted (attr : AttrRef) : ∃ read,
    Value.dottedAttr? (attr.resource ++ "." ++ attr.name) = some read ∧ (read = attr ↔ '.' ∉ attr.resource.toList) := by
  obtain ⟨resource, name⟩ := attr
  have text : (resource ++ "." ++ name).toList = resource.toList ++ '.' :: name.toList := by simp
  unfold Value.dottedAttr?
  rw [text]
  by_cases dot : '.' ∈ resource.toList
  · obtain ⟨before, after, split, first⟩ := List.eq_append_cons_of_mem dot
    rw [split, List.append_assoc, List.cons_append, Text.splitFirst?_append first]
    refine ⟨_, rfl, iff_of_false (fun same => ?_) (by simp)⟩
    have shorter : before = before ++ '.' :: after := by
      rw [← split, ← (AttrRef.mk.inj same).1, String.toList_ofList]
    simp at shorter
  · rw [Text.splitFirst?_append dot]
    exact ⟨_, rfl, iff_of_true (by simp) dot⟩

namespace Value

/-- A member that stands alone is no pair of texts under the key for attributes. -/
def LoneKept : List (String × Value) → Prop
  | [(name, .arr [.str _, .str _])] => name ≠ Function.getAtt.key
  | _ => True

/-- What a node must be like to be the same after its attributes are dotted. -/
def NodeKept : Value → Prop
  | .fn (.getAtt attr) => '.' ∉ attr.resource.toList
  | .fn (.sub _ bindings) => LoneKept bindings
  | .fn (.transform _ parameters) => LoneKept parameters
  | .fn (.verbatim _ args) => args.Everywhere fun w => ¬ w.IsAttribute
  | _ => True

/-- The attributes of a value are the same after they are dotted. -/
def Kept (v : Value) : Prop := Everywhere NodeKept v

variable {limit : Nat} {chain : List String}

/-- Reading what is written for `v` with dotted attributes gives `w`, wherever it stands. -/
def Rereads (limit : Nat) (chain : List String) (v w : Value) : Prop :=
  ∀ path, decodeAt limit chain path v.toJson.dotted = .ok w

/-- `v` is read again, and is the same if it is kept. -/
def IsReread (limit : Nat) (chain : List String) (v : Value) : Prop :=
  ∃ w, Rereads limit chain v w ∧ (w = v ↔ Kept v)

theorem exists_reread_items {items : List Value} (each : ∀ v ∈ items, IsReread limit chain v) :
    ∃ read, (∀ path position, decodeItems limit chain path position ((itemsToJson items).map Json.dotted) = .ok read) ∧
      (read = items ↔ ∀ v ∈ items, Kept v) := by
  induction items with
  | nil => exact ⟨[], fun _ _ => rfl, by simp⟩
  | cons item rest ih =>
    rw [List.forall_mem_cons] at each
    obtain ⟨first, reads, same⟩ := each.1
    obtain ⟨others, later, sameOthers⟩ := ih each.2
    refine ⟨first :: others, fun path position => ?_, ?_⟩
    · simp only [itemsToJson, List.map_cons, decodeItems, bind_eq_ok, pure_eq_ok]
      exact ⟨first, reads _, others, later _ _, rfl⟩
    · rw [List.cons.injEq, List.forall_mem_cons, same, sameOthers]

theorem exists_reread_members {members : List (String × Value)} (each : ∀ v ∈ members.map (·.2), IsReread limit chain v) :
    ∃ read, (∀ path, decodeMembers limit chain path (mapEntries Json.dotted (membersToJson members)) = .ok read) ∧
      (read = members ↔ ∀ v ∈ members.map (·.2), Kept v) := by
  induction members with
  | nil => exact ⟨[], fun _ => rfl, by simp⟩
  | cons member rest ih =>
    rw [List.map_cons, List.forall_mem_cons] at each
    obtain ⟨name, value⟩ := member
    obtain ⟨first, reads, same⟩ := each.1
    obtain ⟨others, later, sameOthers⟩ := ih each.2
    refine ⟨(name, first) :: others, fun path => ?_, ?_⟩
    · simp only [membersToJson, mapEntries, List.map_cons, decodeMembers, bind_eq_ok, pure_eq_ok]
      exact ⟨first, reads _, others, later _, rfl⟩
    · rw [List.cons.injEq, Prod.mk.injEq, List.map_cons, List.forall_mem_cons, same, sameOthers]
      simp

theorem toJson_eq_pair {v : Value} {first second : String} (same : v.toJson = .arr [.str first, .str second]) :
    v = .arr [.str first, .str second] := by
  cases v with
  | arr items =>
    rw [toJson, Json.arr.injEq] at same
    rcases items with _ | ⟨_, _ | ⟨_, _ | _⟩⟩
    · simp [itemsToJson] at same
    · simp [itemsToJson] at same
    · simp only [itemsToJson, List.cons.injEq, and_true] at same
      rw [toJson_eq_str same.1, toJson_eq_str same.2]
    · simp [itemsToJson] at same
  | _ => simp [toJson] at same

theorem exists_reread_bindings {members : List (String × Value)}
    (each : ∀ v ∈ members.map (·.2), IsReread limit chain v) :
    ∃ docs read, (Json.obj (membersToJson members)).dotted = .obj docs ∧
      (∀ path, decodeMembers limit chain path docs = .ok read) ∧
        (read = members ↔ LoneKept members ∧ ∀ v ∈ members.map (·.2), Kept v) := by
  by_cases lone : (Json.obj (membersToJson members)).IsAttribute
  · obtain ⟨resource, name, same⟩ := lone.eq
    obtain ⟨value, rfl, pair⟩ := membersToJson_eq_singleton (Json.obj.inj same)
    obtain rfl := toJson_eq_pair pair
    have dotted := (congrArg Json.dotted same).trans (Json.dotted_attribute resource name)
    refine ⟨_, [(Function.getAtt.key, .str (resource ++ "." ++ name))], dotted, fun path => ?_, ?_⟩
    · simp [decodeMembers, decodeAt]
    · simp [LoneKept]
  · obtain ⟨read, reads, same⟩ := exists_reread_members each
    refine ⟨_, read, Json.dotted_obj lone, reads, ?_⟩
    have kept : LoneKept members := by
      unfold LoneKept
      split
      · rename_i name resource attr
        intro key
        subst key
        apply lone
        simp [membersToJson, toJson, itemsToJson, Json.IsAttribute]
      · trivial
    simp [same, kept]

/-- The arguments of a call are read again from their dotted form. References to attributes have a form
    of their own. -/
theorem exists_reread_call {call : Intrinsic Value} {f : Function} (known : call.function? = some f)
    (other : f ≠ .getAtt) (each : ∀ v ∈ call.argValues, IsReread limit chain v) :
    ∃ read, (∀ path key, decodeCall limit chain path f (key, (argsToJson call).dotted) = .ok read) ∧
      (read = call ↔ NodeKept (.fn call) ∧ ∀ v ∈ call.argValues, Kept v) := by
  unfold Intrinsic.argValues at *
  cases call with
  | verbatim key args => cases known
  | getAtt attr => cases known; exact absurd rfl other
  | ref name | condition name =>
    cases known
    refine ⟨?_, fun path key => ?reads, ?same⟩
    case reads =>
      rw [argsToJson, Json.dotted_str, decodeCall]
      rfl
    case same =>
      simp [NodeKept, Intrinsic.args]
  | sub template bindings =>
    cases known
    rw [Intrinsic.args, Intrinsic.keyed_values] at *
    obtain ⟨docs, read, dotted, reads, same⟩ := exists_reread_bindings each
    cases bindings with
    | nil =>
      refine ⟨.sub template [], fun path key => ?_, ?_⟩
      · rw [argsToJson, Json.dotted_str, decodeCall]
        rfl
      · simp [NodeKept, LoneKept]
    | cons binding rest =>
      rw [membersToJson] at dotted
      refine ⟨.sub template read, fun path key => ?_, ?_⟩
      · simp only [argsToJson, Json.dotted_arr, List.map_cons, List.map_nil, Json.dotted_str, dotted]
        simp [decodeCall, reads]
      · simpa [NodeKept] using same
  | transform name parameters =>
    cases known
    rw [Intrinsic.args, Intrinsic.keyed_values] at *
    obtain ⟨docs, read, dotted, reads, same⟩ := exists_reread_bindings each
    have plain : ¬ Json.IsAttribute (argsToJson (.transform name parameters)) := by
      rw [argsToJson]
      exact id
    refine ⟨.transform name read, fun path key => ?_, ?_⟩
    · rw [argsToJson] at plain ⊢
      rw [Json.dotted_obj plain]
      simp only [mapEntries, List.map_cons, List.map_nil, Json.dotted_str, dotted]
      simp [decodeCall, decodeParameters, reads]
    · simpa [NodeKept] using same
  | and conditions | or conditions =>
    cases known
    rw [Intrinsic.args, Intrinsic.indexed_values] at *
    obtain ⟨read, reads, same⟩ := exists_reread_items each
    refine ⟨?_, fun path key => ?reads, ?same⟩
    case reads =>
      simp only [argsToJson, Json.dotted_arr, decodeCall, reads]
      rfl
    case same =>
      simpa [NodeKept] using same
  | join _ v | not v | split _ v | base64 v | importValue v | getAZs v =>
    cases known
    obtain ⟨w, reads, same⟩ := each v (by simp [Intrinsic.args])
    refine ⟨?_, fun path key => ?reads, ?same⟩
    case reads =>
      simp only [argsToJson, Json.dotted_arr, List.map_cons, List.map_nil, Json.dotted_str, decodeCall, reads _]
      rfl
    case same =>
      simpa [NodeKept, Intrinsic.args] using same
  | select v₁ v₂ | cond _ v₁ v₂ | equals v₁ v₂ =>
    cases known
    obtain ⟨w₁, reads₁, same₁⟩ := each v₁ (by simp [Intrinsic.args])
    obtain ⟨w₂, reads₂, same₂⟩ := each v₂ (by simp [Intrinsic.args])
    refine ⟨?_, fun path key => ?reads, ?same⟩
    case reads =>
      simp only [argsToJson, Json.dotted_arr, List.map_cons, List.map_nil, Json.dotted_str, decodeCall, reads₁ _, reads₂ _]
      rfl
    case same =>
      simp [NodeKept, Intrinsic.args, same₁, same₂]
  | cidr v₁ v₂ v₃ | findInMap v₁ v₂ v₃ =>
    cases known
    obtain ⟨w₁, reads₁, same₁⟩ := each v₁ (by simp [Intrinsic.args])
    obtain ⟨w₂, reads₂, same₂⟩ := each v₂ (by simp [Intrinsic.args])
    obtain ⟨w₃, reads₃, same₃⟩ := each v₃ (by simp [Intrinsic.args])
    refine ⟨?_, fun path key => ?reads, ?same⟩
    case reads =>
      simp only [argsToJson, Json.dotted_arr, List.map_cons, List.map_nil, decodeCall, reads₁ _, reads₂ _, reads₃ _]
      rfl
    case same =>
      simp [NodeKept, Intrinsic.args, same₁, same₂, same₃]

theorem isCall_dotted (key : String) (args : Json) : isCall key args.dotted = isCall key args := by
  have text : (∃ s, args.dotted = .str s) ↔ ∃ s, args = .str s := by
    constructor
    · rintro ⟨s, same⟩
      exact ⟨s, Json.dotted_eq_str same⟩
    · rintro ⟨s, rfl⟩
      exact ⟨s, Json.dotted_str s⟩
  rw [Bool.eq_iff_iff, isCall_iff, isCall_iff, text]

/-- What is kept as written is kept again, with its own attributes dotted. -/
theorem verbatim_isReread {key : String} {args : Json} (kept : KeptAsWritten key args) (room : chain.length < limit) :
    IsReread limit chain (.fn (.verbatim key args)) := by
  have plain : ¬ Json.IsAttribute (.obj [(key, args)]) := by
    intro reads
    obtain ⟨resource, name, same⟩ := reads.eq
    cases same
    rcases kept with ⟨-, unknown⟩ | ⟨-, _, _, same⟩
    · exact unknown .getAtt rfl
    · simp at same
  have again : KeptAsWritten key args.dotted := by
    rcases kept with unknown | ⟨rfl, resource, members, rfl⟩
    · exact .inl unknown
    · obtain ⟨docs, dotted⟩ := Json.exists_dotted_obj members
      exact .inr ⟨rfl, resource, docs, by simp [dotted]⟩
  refine ⟨.fn (.verbatim key args.dotted), fun path => ?_, ?_⟩
  · have comesBack := verbatim_comesBack again room path
    rw [toJson, Intrinsic.key, argsToJson] at comesBack ⊢
    rw [Json.dotted_obj plain]
    exact comesBack
  · rw [Kept, everywhere_iff, fn.injEq, Intrinsic.verbatim.injEq, and_iff_right rfl, Json.dotted_eq_self_iff]
    exact (and_iff_left fun _ child => by cases child).symm

/-- A reference to an attribute is read from its dotted text. -/
theorem getAtt_isReread (attr : AttrRef) (room : chain.length < limit) :
    IsReread limit chain (.fn (.getAtt attr)) := by
  obtain ⟨read, found, same⟩ := attr.exists_dotted
  refine ⟨.fn (.getAtt read), fun path => ?_, ?_⟩
  · have isCall : isCall Function.getAtt.key (.str (attr.resource ++ "." ++ attr.name)) = true :=
      (isCall_iff _ _).mpr (.inl ⟨.getAtt, by decide, rfl⟩)
    have dotted : (Value.fn (.getAtt attr)).toJson.dotted =
        .obj [(Function.getAtt.key, .str (attr.resource ++ "." ++ attr.name))] := by
      rw [toJson, argsToJson]
      exact Json.dotted_attribute _ _
    rw [dotted, decodeAt_call isCall, if_neg (by omega), Function.ofKey?_key]
    simp [decodeCall, found]
  · rw [Kept, everywhere_iff, fn.injEq, Intrinsic.getAtt.injEq, same]
    exact (and_iff_left fun _ child => by cases child).symm

/-- A canonical value is read again from its dotted form, and is the same exactly if it is kept. -/
theorem exists_reread (v : Value) : ∀ {chain : List String}, Everywhere NodeCanonical v →
    callDepth v ≤ limit - chain.length → IsReread limit chain v := by
  induction v using node_induction with
  | step v ih =>
    intro chain nodes nesting
    obtain ⟨here, below⟩ := (everywhere_iff NodeCanonical v).mp nodes
    cases v with
    | null | bool _ | num _ | str _ =>
      refine ⟨_, fun path => by rw [toJson, Json.dotted, decodeAt]; rfl, iff_of_true rfl ?_⟩
      exact (everywhere_iff _ _).mpr ⟨trivial, fun _ child => child.elim⟩
    | arr items =>
      rw [callDepth_le_iff_of_plain rfl] at nesting
      obtain ⟨read, reads, same⟩ := exists_reread_items fun w member =>
        ih w member (below w member) (nesting w member)
      refine ⟨.arr read, fun path => ?_, ?_⟩
      · simp [toJson, decodeAt, reads]
      · rw [Kept, everywhere_iff, arr.injEq, same]
        exact (and_iff_right trivial).symm
    | obj members =>
      rw [callDepth_le_iff_of_plain rfl] at nesting
      obtain ⟨read, reads, same⟩ := exists_reread_members fun w child => ih w child (below w child) (nesting w child)
      -- A single member that made the object a call, dotted or not, would not be canonical.
      have other : ¬ (Json.obj (membersToJson members)).IsAttribute := by
        intro attr
        obtain ⟨resource, name, single⟩ := attr.eq
        obtain ⟨value, rfl, -⟩ := membersToJson_eq_singleton (Json.obj.inj single)
        exact here (.inl ⟨.getAtt, by decide, rfl⟩)
      refine ⟨.obj read, fun path => ?_, ?_⟩
      · rw [toJson, Json.dotted_obj other, decodeAt_obj, reads]
        · rfl
        · intro key args single
          obtain ⟨⟨_, json⟩, entry, same⟩ := List.map_eq_singleton_iff.mp single
          cases same
          obtain ⟨value, rfl, rfl⟩ := membersToJson_eq_singleton entry
          rw [isCall_dotted, ← Bool.not_eq_true, isCall_toJson_iff]
          exact here
      · rw [Kept, everywhere_iff, obj.injEq, same]
        exact (and_iff_right trivial).symm
    | fn call =>
      obtain ⟨room, nesting⟩ := (callDepth_fn_le_iff call _).mp nesting
      cases known : call.function? with
      | none =>
        cases call <;> cases known
        exact verbatim_isReread here (by omega)
      | some f =>
        by_cases attr : f = .getAtt
        · subst attr
          cases call <;> cases known
          exact getAtt_isReread _ (by omega)
        · have each (w : Value) (child : Child w (.fn call)) : IsReread limit (chain ++ [f.key]) w := by
            apply ih w child (below w child)
            rw [List.length_append, List.length_singleton, ← Nat.sub_sub]
            exact nesting w child
          obtain ⟨read, reads, same⟩ := exists_reread_call known attr each
          refine ⟨.fn read, fun path => ?_, ?_⟩
          · have other : ¬ Json.IsAttribute (.obj [(f.key, argsToJson call)]) :=
              Json.not_isAttribute_of_mem f.key _ (List.mem_singleton.mpr rfl) fun same => attr (Function.key_injective same)
            rw [toJson, key_of_function known, Json.dotted_obj other]
            have isCall := isCall_of_function known
            rw [← isCall_dotted] at isCall
            refine (decodeAt_call isCall).trans ?_
            rw [if_neg (by omega), Function.ofKey?_key]
            simp [reads]
          · rw [Kept, everywhere_iff, fn.injEq, same]
            rfl

end Value

end StackCompiler
