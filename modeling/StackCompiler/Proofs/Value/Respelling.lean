import Mathlib.Data.List.TakeDrop
import StackCompiler.Proofs.Json.Nodes
import StackCompiler.Proofs.Value.RoundTrip

/-!
What decoding changes. Three functions have more than one way to write their arguments, and
a value is encoded in one of them (`respelled`). Encoding a decoded value gives the document
with these arguments respelled wherever it was decoded (`normal`), and all else as it was
(`toJson_of_ofJson`).
-/
namespace StackCompiler

namespace Json

/-- The list of resource and attribute that a dotted text names: the resource ends at the first dot. -/
def listedAttr (text : String) : Json :=
  match text.toList.span (· ≠ '.') with
  | (resource, _ :: name) => strings [String.ofList resource, String.ofList name]
  | (_, []) => .str text

/-- The arguments of a function in the one way in which they are encoded. -/
def respelled : Function → Json → Json
  | .getAtt, .str text => listedAttr text
  | .sub, .arr [template, .obj []] => template
  | .transform, .obj members =>
    .obj [("Name", (members.lookup "Name").getD .null), ("Parameters", (members.lookup "Parameters").getD (.obj []))]
  | _, args => args

mutual

/-- A document in which the arguments of every call that is decoded are respelled. What a call keeps
    as it was written is no place for calls. -/
def normal : Json → Json
  | .null => .null
  | .bool b => .bool b
  | .num n => .num n
  | .str s => .str s
  | .arr items => .arr (normalItems items)
  | .obj [entry] =>
    if Value.isCall entry.1 entry.2 then
      match Function.ofKey? entry.1 with
      | some f => .obj [(entry.1, respelled f (normalArgs f entry))]
      | none => .obj [entry]
    else .obj (normalMembers [entry])
  | .obj members => .obj (normalMembers members)

def normalItems : List Json → List Json
  | [] => []
  | item :: rest => normal item :: normalItems rest

def normalMembers : List (String × Json) → List (String × Json)
  | [] => []
  | (name, json) :: rest => (name, normal json) :: normalMembers rest

/-- An object that is decoded member by member, also where it looks like a call. -/
def normalRecord : Json → Json
  | .obj members => .obj (normalMembers members)
  | other => other

/-- The members of a transform: only its parameters are decoded. -/
def normalParameters : List (String × Json) → List (String × Json)
  | [] => []
  | (name, json) :: rest =>
    (name, if name = "Parameters" then normalRecord json else json) :: normalParameters rest

/-- The arguments of a call whose function is known. -/
def normalArgs : Function → String × Json → Json
  | .getAtt, (_, args) => args
  | .sub, (_, .arr [template, bindings]) => .arr [template, normalRecord bindings]
  | .sub, (_, args) => args
  | .transform, (_, .obj members) => .obj (normalParameters members)
  | .transform, (_, args) => args
  | _, (_, args) => normal args

end

/-! ### Respelling one node -/

theorem normal_obj {docs : List (String × Json)} (plain : ∀ key args, docs = [(key, args)] → Value.isCall key args = false) :
    normal (.obj docs) = .obj (normalMembers docs) := by
  match docs, plain with
  | [], _ => rw [normal]; simp
  | [(key, args)], plain => simp [normal, plain key args rfl]
  | _ :: _ :: _, _ => rw [normal]; simp

theorem normal_call {f : Function} {args : Json} (isCall : Value.isCall f.key args = true) :
    normal (.obj [(f.key, args)]) = .obj [(f.key, respelled f (normalArgs f (f.key, args)))] := by
  rw [normal, if_pos isCall, Function.ofKey?_key]

/-- A call of a function that is not known stays as it is, with all that stands inside. -/
theorem normal_unknown {key : String} {args : Json} (isCall : Value.isCall key args = true)
    (unknown : ∀ f : Function, f.key ≠ key) : normal (.obj [(key, args)]) = .obj [(key, args)] := by
  rw [normal, if_pos isCall, (Function.ofKey?_eq_none_iff key).mpr unknown]

theorem listedAttr_of_dottedAttr? {text : String} {attr : AttrRef} (found : Value.dottedAttr? text = some attr) :
    listedAttr text = strings [attr.resource, attr.name] := by
  have undotted : (fun c : Char => decide (c ≠ '.')) = fun c => ! (c == '.') := by
    funext c
    by_cases dot : c = '.' <;> simp [dot]
  unfold Value.dottedAttr? Text.splitFirst? at found
  unfold listedAttr
  rw [List.span_eq_takeWhile_dropWhile, undotted]
  split at found
  · cases found
  · rename_i after
    obtain rfl := Option.some.inj found
    simp only [after]

theorem lookup_normalParameters (members : List (String × Json)) (name : String) :
    (normalParameters members).lookup name =
      (members.lookup name).map fun json => if name = "Parameters" then normalRecord json else json := by
  induction members with
  | nil => rfl
  | cons member rest ih =>
    obtain ⟨other, json⟩ := member
    by_cases same : name = other
    · simp [normalParameters, same]
    · simp [normalParameters, List.lookup_cons, beq_false_of_ne same, ih]

end Json

namespace Value

variable {limit : Nat} {chain : List String} {path : FieldPath}

/-- Encoding whatever is decoded from `json` gives it respelled. -/
def Respells (limit : Nat) (json : Json) : Prop :=
  ∀ {chain path v}, decodeAt limit chain path json = .ok v → v.toJson = json.normal

theorem decodeItems_toJson_normal {docs : List Json} {items : List Value} {position : Nat}
    (each : ∀ doc ∈ docs, Respells limit doc) (done : decodeItems limit chain path position docs = .ok items) :
    itemsToJson items = Json.normalItems docs := by
  induction docs generalizing position items with
  | nil =>
    simp only [decodeItems, pure_eq_ok] at done
    rw [← done, itemsToJson, Json.normalItems]
  | cons doc rest ih =>
    rw [List.forall_mem_cons] at each
    simp only [decodeItems, bind_eq_ok, pure_eq_ok] at done
    obtain ⟨value, first, values, others, rfl⟩ := done
    rw [itemsToJson, Json.normalItems, each.1 first, ih each.2 others]

theorem decodeMembers_toJson_normal {docs : List (String × Json)} {members : List (String × Value)}
    (each : ∀ doc ∈ docs.map (·.2), Respells limit doc) (done : decodeMembers limit chain path docs = .ok members) :
    membersToJson members = Json.normalMembers docs := by
  induction docs generalizing members with
  | nil =>
    simp only [decodeMembers, pure_eq_ok] at done
    rw [← done, membersToJson, Json.normalMembers]
  | cons doc rest ih =>
    rw [List.map_cons, List.forall_mem_cons] at each
    simp only [decodeMembers, bind_eq_ok, pure_eq_ok] at done
    obtain ⟨value, first, values, others, rfl⟩ := done
    rw [membersToJson, Json.normalMembers, each.1 first, ih each.2 others]

/-- Parameters are an object of their own, also where there are none. -/
theorem decodeParameters_toJson_normal {docs : List (String × Json)} {parameters : List (String × Value)}
    (each : ∀ doc ∈ docs.map (·.2), ∀ w, Json.Child w doc → Respells limit w)
    (done : decodeParameters limit chain path docs = .ok parameters) :
    Json.obj (membersToJson parameters) = ((docs.lookup "Parameters").map Json.normalRecord).getD (.obj []) := by
  induction docs with
  | nil =>
    simp only [decodeParameters, pure_eq_ok] at done
    rw [← done]
    rfl
  | cons doc rest ih =>
    obtain ⟨name, json⟩ := doc
    rw [List.map_cons, List.forall_mem_cons] at each
    unfold decodeParameters at done
    split at done
    · rename_i same
      subst same
      split at done
      · rw [decodeMembers_toJson_normal each.1 done]
        simp [Json.normalRecord]
      · exact absurd done (throw_ne_ok _ _)
    · rename_i different
      rw [ih each.2 done, List.lookup_cons, beq_false_of_ne (Ne.symm different)]

/-- The arguments of a call are encoded as they were written, but for their spelling. -/
theorem decodeCall_toJson_normal {f : Function} {entry : String × Json} {call : Intrinsic Value}
    (each : ∀ w, Json.Occurs w entry.2 → Respells limit w) (done : decodeCall limit chain path f entry = .ok call) :
    call.key = f.key ∧ argsToJson call = Json.respelled f (Json.normalArgs f entry) := by
  have arg {path : FieldPath} {doc : Json} {v : Value} (child : Json.Child doc entry.2)
      (read : decodeAt limit chain path doc = .ok v) : v.toJson = doc.normal := each doc (.single child) read
  cases f.laidOut entry with
  | ref | listed | computed | template | condition =>
    simp only [decodeCall, pure_eq_ok] at done
    subst done
    exact ⟨rfl, by simp [argsToJson, Json.normalArgs, Json.respelled, Json.normal, Json.strings]⟩
  | dotted _ found =>
    simp only [decodeCall, found, pure_eq_ok] at done
    subst done
    exact ⟨rfl, (Json.listedAttr_of_dottedAttr? found).symm⟩
  | bindings _ template docs =>
    simp only [decodeCall, map_eq_ok] at done
    obtain ⟨bindings, decoded, rfl⟩ := done
    have child : Json.Child (.obj docs) (.arr [.str template, .obj docs]) := by simp [Json.Child]
    have inner := decodeMembers_toJson_normal
      (fun doc member => each doc ((Relation.ReflTransGen.single member).tail child)) decoded
    refine ⟨rfl, ?_⟩
    rw [Json.normalArgs, Json.normalRecord, ← inner]
    cases bindings with
    | nil => simp [argsToJson, membersToJson, Json.respelled]
    | cons binding rest => simp [argsToJson, membersToJson, Json.respelled]
  | and | or =>
    simp only [decodeCall, map_eq_ok] at done
    obtain ⟨conditions, decoded, rfl⟩ := done
    have inner := decodeItems_toJson_normal (fun doc member => each doc (.single member)) decoded
    exact ⟨rfl, by simp [argsToJson, Json.normalArgs, Json.respelled, Json.normal, inner]⟩
  | transform _ found =>
    simp only [decodeCall, found, map_eq_ok] at done
    obtain ⟨parameters, decoded, rfl⟩ := done
    have inner := decodeParameters_toJson_normal
      (fun doc member w child => each w ((Relation.ReflTransGen.single child).tail member)) decoded
    refine ⟨rfl, ?_⟩
    simp [argsToJson, Json.normalArgs, Json.respelled, Json.lookup_normalParameters, found, inner]
  | base64 | importValue | getAZs =>
    simp only [decodeCall, map_eq_ok] at done
    obtain ⟨a, first, rfl⟩ := done
    exact ⟨rfl, by simp [argsToJson, Json.normalArgs, Json.respelled, each _ .refl first]⟩
  | join | not | split =>
    simp only [decodeCall, map_eq_ok] at done
    obtain ⟨a, first, rfl⟩ := done
    have inner := arg (by simp [Json.Child]) first
    exact ⟨rfl, by simp [argsToJson, Json.normalArgs, Json.respelled, Json.normal, Json.normalItems, inner]⟩
  | select | cond | equals =>
    simp only [decodeCall, bind_eq_ok, pure_eq_ok] at done
    obtain ⟨a, first, b, second, rfl⟩ := done
    have inner₁ := arg (by simp [Json.Child]) first
    have inner₂ := arg (by simp [Json.Child]) second
    exact ⟨rfl, by simp [argsToJson, Json.normalArgs, Json.respelled, Json.normal, Json.normalItems, inner₁, inner₂]⟩
  | cidr | findInMap =>
    simp only [decodeCall, bind_eq_ok, pure_eq_ok] at done
    obtain ⟨a, first, b, second, c, third, rfl⟩ := done
    have inner₁ := arg (by simp [Json.Child]) first
    have inner₂ := arg (by simp [Json.Child]) second
    have inner₃ := arg (by simp [Json.Child]) third
    exact ⟨rfl, by simp [argsToJson, Json.normalArgs, Json.respelled, Json.normal, Json.normalItems, inner₁, inner₂, inner₃]⟩
  | refused _ refuses => exact absurd done (refuses.value_ne_ok _)

theorem decodeAt_respells (json : Json) : Respells limit json := by
  induction json using Json.below_induction with
  | step json ih =>
    intro chain path v done
    cases json with
    | null | bool _ | num _ | str _ =>
      simp only [decodeAt, pure_eq_ok] at done
      rw [← done, toJson, Json.normal]
    | arr docs =>
      simp only [decodeAt, map_eq_ok] at done
      obtain ⟨items, decoded, rfl⟩ := done
      rw [toJson, Json.normal, decodeItems_toJson_normal (fun doc member => ih doc (.single member)) decoded]
    | obj docs =>
      rcases obj_call_or_plain docs with ⟨key, args, rfl, isCall⟩ | plain
      · obtain ⟨call, rfl⟩ := decodeAt_call_ok isCall done
        obtain ⟨-, _, _, same, -, known⟩ := decodeAt_eq_fn done
        cases same
        rcases known with ⟨f, rfl, decoded⟩ | ⟨unknown, rfl⟩
        · obtain ⟨sameKey, sameArgs⟩ :=
            decodeCall_toJson_normal (fun w occurs => ih w (.tail' occurs (List.mem_singleton.mpr rfl))) decoded
          rw [Json.normal_call isCall, toJson, sameKey, sameArgs]
        · rw [Json.normal_unknown isCall unknown, toJson, argsToJson, Intrinsic.key]
      · rw [decodeAt_obj plain] at done
        obtain ⟨members, decoded, rfl⟩ := (map_eq_ok _ _ _).mp done
        rw [Json.normal_obj plain, toJson, decodeMembers_toJson_normal (fun doc member => ih doc (.single member)) decoded]

/-- Encoding a decoded value gives the document back, with the arguments of attributes, substitutions
    and transforms respelled wherever they were decoded. -/
theorem toJson_of_ofJson {json : Json} {v : Value} (decoded : ofJson json = .ok v) : v.toJson = json.normal :=
  decodeAt_respells json decoded

/-- All three spellings in a list, and none of them where it is a name or is kept as it was written. -/
def looseDocument : Json :=
  .obj [("Fn::Join", .arr [.str ".", .arr [
    .obj [("Fn::GetAtt", .str "Db.Endpoint.Address")],
    .obj [("Fn::Sub", .arr [.str "plain", .obj []])],
    .obj [("Fn::Sub", .arr [.str "$\x7bFn::GetAtt\x7d", .obj [("Fn::GetAtt", .str "a.b")]])],
    .obj [("Fn::Transform", .obj [("Extra", .null), ("Name", .str "Include")])],
    .obj [("Fn::Transform", .obj [("Parameters", .obj [("At", .obj [("Fn::GetAtt", .str "a.b")])]), ("Name", .str "Macro")])],
    .obj [("Fn::Length", .obj [("Fn::GetAtt", .str "a.b")])],
    .obj [("Fn::GetAtt", .arr [.str "Db", .obj [("Fn::Sub", .arr [.str "plain", .obj []])]])],
    .obj [("Z", .num (.int 1)), ("A", .num (.float (.ofInt 1)))]]])]

theorem toJson_of_ofJson_loose :
    ∃ v, ofJson looseDocument = .ok v ∧ v.toJson =
      .obj [("Fn::Join", .arr [.str ".", .arr [
        .obj [("Fn::GetAtt", .arr [.str "Db", .str "Endpoint.Address"])],
        .obj [("Fn::Sub", .str "plain")],
        .obj [("Fn::Sub", .arr [.str "$\x7bFn::GetAtt\x7d", .obj [("Fn::GetAtt", .str "a.b")]])],
        .obj [("Fn::Transform", .obj [("Name", .str "Include"), ("Parameters", .obj [])])],
        .obj [("Fn::Transform", .obj [("Name", .str "Macro"),
          ("Parameters", .obj [("At", .obj [("Fn::GetAtt", .arr [.str "a", .str "b"])])])])],
        .obj [("Fn::Length", .obj [("Fn::GetAtt", .str "a.b")])],
        .obj [("Fn::GetAtt", .arr [.str "Db", .obj [("Fn::Sub", .arr [.str "plain", .obj []])]])],
        .obj [("Z", .num (.int 1)), ("A", .num (.float (.ofInt 1)))]]])] := by
  have read : (ofJson looseDocument).isOk = true := by decide +kernel
  cases decoded : ofJson looseDocument with
  | error _ => rw [decoded] at read; cases read
  | ok v => exact ⟨v, rfl, (toJson_of_ofJson decoded).trans (by rfl)⟩

end Value

end StackCompiler
