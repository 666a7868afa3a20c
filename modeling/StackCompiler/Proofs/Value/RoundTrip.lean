import StackCompiler.Proofs.Members
import StackCompiler.Proofs.Value.Decoding
import StackCompiler.Value.Encode

/-!
The wire form and back. A value survives encoding and decoding exactly when it is
canonical: none of its objects would be read as a call, what it keeps as written would be
kept again, and its calls nest within the limit (`ofJson_toJson_iff_canonical`). Every
decoded value is canonical.
-/
namespace StackCompiler.Value

/-- An object whose one member is `name` with `value` is read as a call. -/
def ReadAsCall (name : String) (value : Value) : Prop :=
  (∃ f : Function, f ≠ .condition ∧ f.key = name) ∨ Intrinsic.keyStart <+: name.toList ∨
    (name = Function.condition.key ∧ ∃ s, value = .str s)

/-- A call of `key` stays as it is written: the key has the namespace of functions and is of no known
    one, or the name of an attribute is computed. -/
def KeptAsWritten (key : String) (args : Json) : Prop :=
  (Intrinsic.keyStart <+: key.toList ∧ ∀ f : Function, f.key ≠ key) ∨
    (key = Function.getAtt.key ∧ ∃ resource members, args = .arr [.str resource, .obj members])

/-- The values that their wire form determines. -/
structure Canonical (v : Value) : Prop where
  objects : ∀ name value, Occurs (.obj [(name, value)]) v → ¬ ReadAsCall name value
  verbatim : ∀ key args, Occurs (.fn (.verbatim key args)) v → KeptAsWritten key args
  nesting : callDepth v ≤ 64

/-! ### One node -/

/-- What a canonical value asks of each of its nodes. -/
def NodeCanonical : Value → Prop
  | .obj [(name, value)] => ¬ ReadAsCall name value
  | .fn (.verbatim key args) => KeptAsWritten key args
  | _ => True

theorem canonical_iff (v : Value) : Canonical v ↔ Everywhere NodeCanonical v ∧ callDepth v ≤ callLimit := by
  constructor
  · intro canonical
    refine ⟨fun w inside => ?_, canonical.nesting⟩
    unfold NodeCanonical
    split
    · exact canonical.objects _ _ inside
    · exact canonical.verbatim _ _ inside
    · trivial
  · rintro ⟨nodes, nesting⟩
    exact ⟨fun name value inside => nodes _ inside, fun key args inside => nodes _ inside, nesting⟩

theorem Canonical.child {v w : Value} (canonical : Canonical v) (child : Child w v) : Canonical w := by
  obtain ⟨nodes, nesting⟩ := (canonical_iff v).mp canonical
  refine (canonical_iff w).mpr ⟨((everywhere_iff _ v).mp nodes).2 w child, ?_⟩
  cases kind : v.asFn? with
  | none => exact (callDepth_le_iff_of_plain kind _).mp nesting w child
  | some call =>
    obtain rfl := asFn?_eq_some kind
    have inner := ((callDepth_fn_le_iff call _).mp nesting).2 w child
    omega

variable {limit : Nat} {chain : List String} {path : FieldPath}

/-! ### Decoded values are canonical -/

theorem decodeMembers_eq_singleton {docs : List (String × Json)} {name : String} {value : Value}
    (done : decodeMembers limit chain path docs = .ok [(name, value)]) :
    ∃ doc, docs = [(name, doc)] ∧ decodeAt limit chain (path.key name) doc = .ok value := by
  cases docs with
  | nil => simp [decodeMembers] at done
  | cons member rest =>
    simp only [decodeMembers, bind_eq_ok, pure_eq_ok, List.cons.injEq, Prod.mk.injEq] at done
    obtain ⟨value', first, values, others, ⟨rfl, rfl⟩, rfl⟩ := done
    cases rest with
    | nil => exact ⟨member.2, rfl, first⟩
    | cons _ _ => simp [decodeMembers] at others

/-- An object that was not read as a call has no member that would make it one. -/
theorem decoded_obj_canonical {name : String} {value : Value}
    (decoded : Decoded limit chain (.obj [(name, value)])) : ¬ ReadAsCall name value := by
  obtain ⟨path, json, decoded⟩ := decoded
  obtain ⟨docs, rfl, plain, done⟩ := decodeAt_eq_obj decoded
  obtain ⟨doc, rfl, member⟩ := decodeMembers_eq_singleton done
  have notCall := plain name doc rfl
  intro read
  have isCall : isCall name doc = true := by
    rw [isCall_iff]
    rcases read with known | start | ⟨same, s, rfl⟩
    · exact .inl known
    · exact .inr (.inl start)
    · exact .inr (.inr ⟨same, s, decodeAt_eq_str member⟩)
  rw [isCall] at notCall
  cases notCall

theorem decoded_verbatim_kept {key : String} {args : Json}
    (decoded : Decoded limit chain (.fn (.verbatim key args))) : KeptAsWritten key args := by
  obtain ⟨path, json, decoded⟩ := decoded
  obtain ⟨-, name, doc, rfl, isCall, ⟨f, -, done⟩ | ⟨unknown, same⟩⟩ := decodeAt_eq_fn decoded
  · exact .inr (decodeCall_eq_verbatim done)
  · cases same
    refine .inl ⟨?_, unknown⟩
    rcases (isCall_iff key args).mp isCall with ⟨f, -, same⟩ | start | ⟨same, -⟩
    · exact absurd same (unknown f)
    · exact start
    · exact absurd same.symm (unknown .condition)

/-- Every node of a decoded value is canonical, and its calls fill at most what `chain` leaves of the
    limit. -/
theorem decoded_canonical (v : Value) : ∀ {chain : List String}, Decoded limit chain v →
    Everywhere NodeCanonical v ∧ callDepth v ≤ limit - chain.length := by
  -- The children are decoded inside at most one call more, so the induction is over nodes.
  induction v using node_induction with
  | step v ih =>
    intro chain decoded
    obtain ⟨path, json, done⟩ := id decoded
    have here : NodeCanonical v := by
      unfold NodeCanonical
      split
      · exact decoded_obj_canonical decoded
      · exact decoded_verbatim_kept decoded
      · trivial
    cases kind : v.asFn? with
    | none =>
      have below (w : Value) (child : Child w v) := ih w child (decodeAt_child done kind child)
      rw [everywhere_iff, callDepth_le_iff_of_plain kind]
      exact ⟨⟨here, fun w child => (below w child).1⟩, fun w child => (below w child).2⟩
    | some call =>
      obtain rfl := asFn?_eq_some kind
      have inside := (decodeAt_eq_fn done).1
      have below (w : Value) (child : Child w (.fn call)) :
          Everywhere NodeCanonical w ∧ callDepth w ≤ limit - chain.length - 1 := by
        obtain ⟨key, decoded⟩ := decodeAt_fn_child done child
        have bounded := ih w child decoded
        rw [List.length_append, List.length_singleton, ← Nat.sub_sub] at bounded
        exact bounded
      rw [everywhere_iff, callDepth_fn_le_iff]
      exact ⟨⟨here, fun w child => (below w child).1⟩, by omega, fun w child => (below w child).2⟩

/-! ### Canonical values come back -/

theorem itemsToJson_eq_map (items : List Value) : itemsToJson items = items.map toJson := by
  induction items with
  | nil => rfl
  | cons item rest ih => rw [itemsToJson, ih, List.map_cons]

theorem membersToJson_eq_mapEntries (members : List (String × Value)) :
    membersToJson members = mapEntries toJson members := by
  induction members with
  | nil => rfl
  | cons member rest ih =>
    rw [membersToJson, ih]
    rfl

theorem memberNames_membersToJson (members : List (String × Value)) :
    memberNames (membersToJson members) = memberNames members := by
  rw [membersToJson_eq_mapEntries, memberNames_mapEntries]

theorem values_membersToJson (members : List (String × Value)) :
    (membersToJson members).map (·.2) = (members.map (·.2)).map toJson := by
  rw [membersToJson_eq_mapEntries, values_mapEntries]

theorem toJson_eq_str {v : Value} {s : String} (same : v.toJson = .str s) : v = .str s := by
  cases v <;> simp_all [toJson]

theorem membersToJson_eq_singleton {members : List (String × Value)} {name : String} {json : Json}
    (single : membersToJson members = [(name, json)]) : ∃ value, members = [(name, value)] ∧ value.toJson = json := by
  cases members with
  | nil => simp [membersToJson] at single
  | cons member rest =>
    simp only [membersToJson, List.cons.injEq, Prod.mk.injEq] at single
    obtain ⟨⟨rfl, rfl⟩, others⟩ := single
    cases rest with
    | nil => exact ⟨member.2, rfl, rfl⟩
    | cons _ _ => simp [membersToJson] at others

theorem isCall_toJson_iff (name : String) (value : Value) :
    isCall name value.toJson = true ↔ ReadAsCall name value := by
  rw [isCall_iff, ReadAsCall]
  have text : (∃ s, value.toJson = .str s) ↔ ∃ s, value = .str s := by
    constructor
    · rintro ⟨s, same⟩
      exact ⟨s, toJson_eq_str same⟩
    · rintro ⟨s, rfl⟩
      exact ⟨s, by rw [toJson]⟩
  rw [text]

/-- `v` comes back from its wire form inside the calls of `chain`, wherever it stands. -/
def ComesBack (limit : Nat) (chain : List String) (v : Value) : Prop :=
  ∀ path, decodeAt limit chain path v.toJson = .ok v

theorem decodeItems_toJson {items : List Value} (back : ∀ w ∈ items, ComesBack limit chain w)
    (path : FieldPath) (position : Nat) :
    decodeItems limit chain path position (itemsToJson items) = .ok items := by
  induction items generalizing position with
  | nil => rfl
  | cons item rest ih =>
    rw [List.forall_mem_cons] at back
    simp only [itemsToJson, decodeItems, bind_eq_ok, pure_eq_ok]
    exact ⟨item, back.1 _, rest, ih back.2 _, rfl⟩

theorem decodeMembers_toJson {members : List (String × Value)}
    (back : ∀ w ∈ members.map (·.2), ComesBack limit chain w) (path : FieldPath) :
    decodeMembers limit chain path (membersToJson members) = .ok members := by
  induction members with
  | nil => rfl
  | cons member rest ih =>
    rw [List.map_cons, List.forall_mem_cons] at back
    simp only [membersToJson, decodeMembers, bind_eq_ok, pure_eq_ok]
    exact ⟨member.2, back.1 _, rest, ih back.2, rfl⟩

/-- A call of a known function comes back from its own layout when its arguments do. -/
theorem decodeCall_argsToJson {call : Intrinsic Value} {f : Function} (known : call.function? = some f)
    (back : ∀ w ∈ call.argValues, ComesBack limit chain w) (path : FieldPath) (key : String) :
    decodeCall limit chain path f (key, argsToJson call) = .ok call := by
  unfold Intrinsic.argValues at back
  cases call with
  | verbatim key args => cases known
  | ref name | condition name => cases known; simp [argsToJson, decodeCall]
  | getAtt attr => cases known; simp [argsToJson, decodeCall, Json.strings]
  | sub template bindings =>
    cases known
    cases bindings with
    | nil => simp [argsToJson, decodeCall]
    | cons binding rest =>
      rw [Intrinsic.args, Intrinsic.keyed_values] at back
      have done := decodeMembers_toJson back (path.key "Variables")
      rw [membersToJson] at done
      simp [argsToJson, decodeCall, done]
  | transform name parameters =>
    cases known
    rw [Intrinsic.args, Intrinsic.keyed_values] at back
    have done := decodeMembers_toJson back (path.key "Parameters")
    simp [argsToJson, decodeCall, decodeParameters, done]
  | and conditions | or conditions =>
    cases known
    rw [Intrinsic.args, Intrinsic.indexed_values] at back
    simp [argsToJson, decodeCall, decodeItems_toJson back]
  | _ =>
    cases known
    simp only [Intrinsic.args, List.map_cons, List.map_nil, List.forall_mem_cons, ComesBack] at back
    simp [argsToJson, decodeCall, back]

theorem key_of_function {call : Intrinsic Value} {f : Function} (known : call.function? = some f) :
    call.key = f.key := by
  cases call <;> cases known <;> rfl

theorem isCall_of_function {call : Intrinsic Value} {f : Function} (known : call.function? = some f) :
    isCall f.key (argsToJson call) = true := by
  rw [isCall_iff]
  by_cases other : f = .condition
  · subst other
    cases call <;> cases known
    exact .inr (.inr ⟨rfl, _, argsToJson.eq_def _⟩)
  · exact .inl ⟨f, other, rfl⟩

/-- What is kept as written is kept again. -/
theorem verbatim_comesBack {key : String} {args : Json} (kept : KeptAsWritten key args)
    (room : chain.length < limit) : ComesBack limit chain (.fn (.verbatim key args)) := by
  intro path
  have isCall : isCall key args = true := by
    rw [isCall_iff]
    rcases kept with ⟨start, -⟩ | ⟨rfl, -⟩
    · exact .inr (.inl start)
    · exact .inl ⟨.getAtt, by decide, rfl⟩
  rw [toJson, Intrinsic.key, argsToJson, decodeAt_call isCall, if_neg (by omega)]
  rcases kept with ⟨-, unknown⟩ | ⟨rfl, resource, members, rfl⟩
  · rw [(Function.ofKey?_eq_none_iff key).mpr unknown]
    rfl
  · rw [Function.ofKey?_key]
    simp [decodeCall]

/-- A canonical value comes back while its calls fill no more than `chain` leaves of the limit. -/
theorem canonical_comesBack (v : Value) : ∀ {chain : List String}, Everywhere NodeCanonical v →
    callDepth v ≤ limit - chain.length → ComesBack limit chain v := by
  induction v using node_induction with
  | step v ih =>
    intro chain nodes nesting path
    obtain ⟨here, below⟩ := (everywhere_iff NodeCanonical v).mp nodes
    cases v with
    | null | bool _ | num _ | str _ => simp [toJson, decodeAt]
    | arr items =>
      rw [callDepth_le_iff_of_plain rfl] at nesting
      have back (w : Value) (member : w ∈ items) := ih w member (below w member) (nesting w member)
      simp [toJson, decodeAt, decodeItems_toJson back]
    | obj members =>
      rw [callDepth_le_iff_of_plain rfl] at nesting
      have back (w : Value) (child : Child w (.obj members)) := ih w child (below w child) (nesting w child)
      rw [toJson, decodeAt_obj, decodeMembers_toJson back]
      · rfl
      · -- A single member that made the encoded object a call would not be canonical.
        intro key args single
        obtain ⟨value, rfl, rfl⟩ := membersToJson_eq_singleton single
        rw [← Bool.not_eq_true, isCall_toJson_iff]
        exact here
    | fn call =>
      obtain ⟨room, nesting⟩ := (callDepth_fn_le_iff call _).mp nesting
      cases known : call.function? with
      | none =>
        cases call <;> cases known
        exact verbatim_comesBack here (by omega) path
      | some f =>
        have back (w : Value) (child : Child w (.fn call)) : ComesBack limit (chain ++ [f.key]) w := by
          apply ih w child (below w child)
          rw [List.length_append, List.length_singleton, ← Nat.sub_sub]
          exact nesting w child
        rw [toJson, key_of_function known, decodeAt_call (isCall_of_function known), if_neg (by omega),
          Function.ofKey?_key]
        simp [decodeCall_argsToJson known back]

/-! ### Main statement -/

/-- Decoding undoes encoding exactly on the canonical values, and every value that decoding gives is
    one of them. -/
theorem ofJson_toJson_iff_canonical :
    (∀ v : Value, ofJson v.toJson = .ok v ↔ Canonical v) ∧
      ∀ (json : Json) (v : Value), ofJson json = .ok v → ofJson v.toJson = .ok v := by
  have canonical (json : Json) (v : Value) (done : ofJson json = .ok v) : Canonical v :=
    (canonical_iff v).mpr (decoded_canonical v ⟨.root, json, done⟩)
  have back (v : Value) (canonical : Canonical v) : ofJson v.toJson = .ok v := by
    obtain ⟨nodes, nesting⟩ := (canonical_iff v).mp canonical
    exact canonical_comesBack v nodes nesting .root
  exact ⟨fun v => ⟨canonical v.toJson v, back v⟩, fun json v done => back v (canonical json v done)⟩

/-- A dotted text is written as a list of two texts, from which the same value is read. -/
theorem ofJson_toJson_dotted :
    ofJson (.obj [(Function.getAtt.key, .str "Db.Endpoint.Address")]) = .ok (.fn (.getAtt ⟨"Db", "Endpoint.Address"⟩)) ∧
      ofJson (.obj [(Function.getAtt.key, .arr [.str "Db", .str "Endpoint.Address"])]) =
        .ok (.fn (.getAtt ⟨"Db", "Endpoint.Address"⟩)) := by
  have dotted : ofJson (.obj [(Function.getAtt.key, .str "Db.Endpoint.Address")]) =
      .ok (.fn (.getAtt ⟨"Db", "Endpoint.Address"⟩)) := by rfl
  exact ⟨dotted, ofJson_toJson_iff_canonical.2 _ _ dotted⟩

end StackCompiler.Value
