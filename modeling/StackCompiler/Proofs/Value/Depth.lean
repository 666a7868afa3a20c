import StackCompiler.Proofs.Value.Dotted

/-!
How deep values nest. The dotted form of a decoded value is as well formed as the document
that it was decoded from, and nests no deeper (`decodeAt_fits`).
-/
namespace StackCompiler.Value

open Json (Fits fits_arr fits_obj fits_dotted_obj)

variable {limit n : Nat} {chain : List String} {path : FieldPath}

/-- Whatever is decoded from `json` fits where `json` does. -/
def KeepsFit (limit : Nat) (json : Json) : Prop :=
  ∀ {chain path v n}, decodeAt limit chain path json = .ok v → Fits n json → Fits n v.toJson.dotted

theorem decodeItems_fits {docs : List Json} {items : List Value} {position : Nat}
    (each : ∀ doc ∈ docs, KeepsFit limit doc) (done : decodeItems limit chain path position docs = .ok items)
    (fits : ∀ doc ∈ docs, 0 < n ∧ Fits (n - 1) doc) : ∀ v ∈ items, 0 < n ∧ Fits (n - 1) v.toJson.dotted := by
  induction docs generalizing position items with
  | nil =>
    simp only [decodeItems, pure_eq_ok] at done
    simp [← done]
  | cons doc rest ih =>
    simp only [decodeItems, bind_eq_ok, pure_eq_ok] at done
    obtain ⟨value, first, values, others, rfl⟩ := done
    rw [List.forall_mem_cons] at each fits ⊢
    exact ⟨⟨fits.1.1, each.1 first fits.1.2⟩, ih each.2 others fits.2⟩

theorem decodeMembers_fits {docs : List (String × Json)} {members : List (String × Value)}
    (each : ∀ doc ∈ docs.map (·.2), KeepsFit limit doc) (done : decodeMembers limit chain path docs = .ok members)
    (fits : ∀ doc ∈ docs.map (·.2), 0 < n ∧ Fits (n - 1) doc) :
    memberNames members = memberNames docs ∧ ∀ v ∈ members.map (·.2), 0 < n ∧ Fits (n - 1) v.toJson.dotted := by
  induction docs generalizing members with
  | nil =>
    simp only [decodeMembers, pure_eq_ok] at done
    subst done
    exact ⟨rfl, by simp⟩
  | cons doc rest ih =>
    simp only [decodeMembers, bind_eq_ok, pure_eq_ok] at done
    obtain ⟨value, first, values, others, rfl⟩ := done
    rw [List.map_cons, List.forall_mem_cons] at each fits ⊢
    obtain ⟨names, later⟩ := ih each.2 others fits.2
    exact ⟨congrArg (doc.1 :: ·) names, ⟨fits.1.1, each.1 first fits.1.2⟩, later⟩

theorem obj_fits {docs : List (String × Json)} {members : List (String × Value)}
    (each : ∀ doc ∈ docs.map (·.2), KeepsFit limit doc) (done : decodeMembers limit chain path docs = .ok members)
    (fits : Fits n (.obj docs)) : Fits n (Json.obj (membersToJson members)).dotted := by
  obtain ⟨distinct, below⟩ := (fits_obj n docs).mp fits
  obtain ⟨names, values⟩ := decodeMembers_fits each done below
  refine fits_dotted_obj ?_ ?_
  · rw [memberNames_membersToJson, names]
    exact distinct
  · rw [values_membersToJson, List.forall_mem_map]
    exact values

theorem decodeParameters_fits {docs : List (String × Json)} {parameters : List (String × Value)}
    (each : ∀ doc ∈ docs.map (·.2), ∀ w, Json.Child w doc → KeepsFit limit w)
    (done : decodeParameters limit chain path docs = .ok parameters)
    (fits : ∀ doc ∈ docs.map (·.2), Fits n doc) : Fits n (Json.obj (membersToJson parameters)).dotted := by
  induction docs with
  | nil =>
    simp only [decodeParameters, pure_eq_ok] at done
    subst done
    exact fits_dotted_obj List.nodup_nil (by simp [membersToJson])
  | cons doc rest ih =>
    obtain ⟨name, json⟩ := doc
    rw [List.map_cons, List.forall_mem_cons] at each fits
    unfold decodeParameters at done
    split at done
    · split at done
      · exact obj_fits each.1 done fits.1
      · exact absurd done (throw_ne_ok _ _)
    · exact ih each.2 done fits.2

/-- A call fits where its key and arguments did, whichever function is called. -/
theorem decodeCall_fits {f : Function} {entry : String × Json} {call : Intrinsic Value}
    (each : ∀ w, Json.Occurs w entry.2 → KeepsFit limit w) (done : decodeCall limit chain path f entry = .ok call)
    (fits : Fits n entry.2) : Fits (n + 1) (Value.fn call).toJson.dotted := by
  have whole (inner : Fits n (argsToJson call).dotted) : Fits (n + 1) (Value.fn call).toJson.dotted := by
    rw [toJson]
    exact fits_dotted_obj (List.nodup_singleton _) (by simpa using inner)
  have attr (attr : AttrRef) : Fits (n + 1) (Value.fn (.getAtt attr)).toJson.dotted := by
    rw [toJson, argsToJson]
    exact Json.dotted_attribute attr.resource attr.name ▸ (by simp)
  have arg {path : FieldPath} {doc : Json} {v : Value} (child : Json.Child doc entry.2)
      (read : decodeAt limit chain path doc = .ok v) : 0 < n ∧ Fits (n - 1) v.toJson.dotted :=
    ⟨(fits.child child).1, each doc (.single child) read (fits.child child).2⟩
  cases f.laidOut entry with
  | ref | template | condition =>
    simp only [decodeCall, pure_eq_ok] at done
    subst done
    exact whole (by simp [argsToJson])
  | listed =>
    simp only [decodeCall, pure_eq_ok] at done
    subst done
    exact attr _
  | computed =>
    simp only [decodeCall, pure_eq_ok] at done
    subst done
    exact whole (by rw [argsToJson]; exact fits.dotted)
  | dotted _ found =>
    simp only [decodeCall, found, pure_eq_ok] at done
    subst done
    exact attr _
  | bindings _ template docs =>
    simp only [decodeCall, map_eq_ok] at done
    obtain ⟨bindings, decoded, rfl⟩ := done
    have child : Json.Child (.obj docs) (.arr [.str template, .obj docs]) := by simp [Json.Child]
    obtain ⟨room, below⟩ := fits.child child
    have inner := obj_fits (fun doc member => each doc ((Relation.ReflTransGen.single member).tail child)) decoded below
    apply whole
    cases bindings with
    | nil => simp [argsToJson]
    | cons binding rest =>
      rw [membersToJson] at inner
      simp [argsToJson, fits_arr, room, inner]
  | and | or =>
    simp only [decodeCall, map_eq_ok] at done
    obtain ⟨conditions, decoded, rfl⟩ := done
    apply whole
    rw [argsToJson, Json.dotted_arr, fits_arr, itemsToJson_eq_map, List.map_map, List.forall_mem_map]
    exact decodeItems_fits (fun doc member => each doc (.single member)) decoded ((fits_arr _ _).mp fits)
  | transform _ found =>
    simp only [decodeCall, found, map_eq_ok] at done
    obtain ⟨parameters, decoded, rfl⟩ := done
    have room := (fits.child (List.mem_map_of_mem (mem_of_lookup found))).1
    have inner := decodeParameters_fits (fun doc member w child => each w ((Relation.ReflTransGen.single child).tail member))
      decoded fun doc member => (fits.child member).2
    apply whole
    rw [argsToJson]
    refine fits_dotted_obj (by simp [memberNames]) ?_
    simp [room, inner]
  | base64 | importValue | getAZs =>
    simp only [decodeCall, map_eq_ok] at done
    obtain ⟨a, first, rfl⟩ := done
    apply whole
    rw [argsToJson]
    exact each _ .refl first fits
  | join | not | split =>
    simp only [decodeCall, map_eq_ok] at done
    obtain ⟨a, first, rfl⟩ := done
    have inner := arg (by simp [Json.Child]) first
    exact whole (by simp [argsToJson, fits_arr, inner])
  | select | cond | equals =>
    simp only [decodeCall, bind_eq_ok, pure_eq_ok] at done
    obtain ⟨a, first, b, second, rfl⟩ := done
    have inner₁ := arg (by simp [Json.Child]) first
    have inner₂ := arg (by simp [Json.Child]) second
    exact whole (by simp [argsToJson, fits_arr, inner₁, inner₂])
  | cidr | findInMap =>
    simp only [decodeCall, bind_eq_ok, pure_eq_ok] at done
    obtain ⟨a, first, b, second, c, third, rfl⟩ := done
    have inner₁ := arg (by simp [Json.Child]) first
    have inner₂ := arg (by simp [Json.Child]) second
    have inner₃ := arg (by simp [Json.Child]) third
    exact whole (by simp [argsToJson, fits_arr, inner₁, inner₂, inner₃])
  | refused _ refuses => exact absurd done (refuses.value_ne_ok _)

theorem decodeAt_fits (json : Json) : KeepsFit limit json := by
  induction json using Json.below_induction with
  | step json ih =>
    intro chain path v n done fits
    cases json with
    | null | bool _ | num _ | str _ =>
      simp only [decodeAt, pure_eq_ok] at done
      subst done
      rw [toJson]
      exact fits.dotted
    | arr docs =>
      simp only [decodeAt, map_eq_ok] at done
      obtain ⟨items, decoded, rfl⟩ := done
      rw [toJson, Json.dotted_arr, fits_arr, itemsToJson_eq_map, List.map_map, List.forall_mem_map]
      exact decodeItems_fits (fun doc member => ih doc (.single member)) decoded ((fits_arr _ _).mp fits)
    | obj docs =>
      rcases obj_call_or_plain docs with ⟨key, args, rfl, isCall⟩ | plain
      · obtain ⟨call, rfl⟩ := decodeAt_call_ok isCall done
        obtain ⟨-, _, _, same, -, known⟩ := decodeAt_eq_fn done
        cases same
        obtain ⟨room, below⟩ := (Json.fits_single _ _ _).mp fits
        rcases known with ⟨f, -, decoded⟩ | ⟨-, rfl⟩
        · have inner := decodeCall_fits (fun w occurs => ih w (.tail' occurs (List.mem_singleton.mpr rfl))) decoded below
          rwa [Nat.sub_add_cancel room] at inner
        · rw [toJson, argsToJson]
          exact fits.dotted
      · rw [decodeAt_obj plain] at done
        obtain ⟨members, decoded, rfl⟩ := (map_eq_ok _ _ _).mp done
        rw [toJson]
        exact obj_fits (fun doc member => ih doc (.single member)) decoded fits

end StackCompiler.Value
