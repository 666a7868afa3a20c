import StackCompiler.Proofs.Json.Dotted
import StackCompiler.Proofs.Yaml.Tags

/-!
Short forms and back. The tree of a document, turned into a document again, is the document
with dotted attributes (`readBack`); and every document that comes from a tree is
well formed (`toJsonAt_fits`). So the two directions undo each other up to the dots
(`toJson_ofJson_eq_dotted`).
-/
namespace StackCompiler.Yaml.Tree

open Json

/-! ### Trees of documents -/

theorem longKey_of_shortTag? {key tag : String} {args : Json} (short : shortTag? key args = some tag) :
    longKey tag = key := by
  have ofTag (f : Function) (tagged : f ≠ .transform) (tag : String)
      (same : tag = if Intrinsic.keyStart.isPrefixOf f.key.toList
        then String.ofList (f.key.toList.drop Intrinsic.keyStart.length) else f.key) : longKey tag = f.key := by
    subst same
    cases f with
    | transform => exact absurd rfl tagged
    | _ => decide
  unfold shortTag? at short
  cases known : Function.ofKey? key with
  | none => simp [known] at short
  | some f =>
    obtain rfl := (Function.ofKey?_eq_some_iff key f).mp known
    rw [known] at short
    cases f with
    | transform => simp at short
    | condition =>
      cases args with
      | str s =>
        obtain rfl : "Condition" = tag := by simpa using short
        decide
      | _ => simp at short
    | _ => exact ofTag _ (by decide) tag (by simpa using short.symm)

theorem dotted?_of_not_isAttribute {key : String} {args : Json} (other : ¬ IsAttribute (.obj [(key, args)])) :
    dotted? key args = none := by
  unfold dotted?
  split
  · have otherKey : key ≠ Function.getAtt.key := other
    simp [otherKey]
  · rfl

/-- `json` is read back with its attributes dotted, from any level that leaves room for it. -/
def ReadBack (json : Json) : Prop :=
  ∀ {level n : Nat}, json.dotted.Fits n → level + n ≤ levelLimit → toJsonAt level (ofJson json) = .ok json.dotted

theorem itemsToJson_ofItems {items : List Json} (each : ∀ item ∈ items, ReadBack item) {level n : Nat}
    (fits : ∀ item ∈ items, 0 < n ∧ item.dotted.Fits (n - 1)) (room : level + n ≤ levelLimit) :
    itemsToJson (level + 1) (ofItems items) = .ok (items.map dotted) := by
  induction items with
  | nil => rfl
  | cons item rest ih =>
    rw [List.forall_mem_cons] at each fits
    have first := each.1 fits.1.2 (show level + 1 + (n - 1) ≤ levelLimit by omega)
    simp only [ofItems, itemsToJson, bind_eq_ok, pure_eq_ok]
    exact ⟨_, first, _, ih each.2 fits.2, rfl⟩

theorem entriesToJson_ofMembers {members : List (String × Json)} (each : ∀ w ∈ members.map (·.2), ReadBack w)
    {level n : Nat} (fits : ∀ w ∈ members.map (·.2), 0 < n ∧ w.dotted.Fits (n - 1)) (room : level + n ≤ levelLimit) :
    entriesToJson (level + 1) (ofMembers members) = .ok (mapEntries dotted members) := by
  induction members with
  | nil => rfl
  | cons member rest ih =>
    rw [List.map_cons, List.forall_mem_cons] at each fits
    have first := each.1 fits.1.2 (show level + 1 + (n - 1) ≤ levelLimit by omega)
    simp only [ofMembers, entriesToJson, keyText, bind_eq_ok, pure_eq_ok]
    exact ⟨_, rfl, _, first, _, ih each.2 fits.2, rfl⟩

theorem numberJson_of_finite {n : Number} (finite : n.Finite) : numberJson n = .num n := by
  cases n with
  | int i => rfl
  | float x => exact if_pos finite

theorem readBack (json : Json) : ReadBack json := by
  induction json using node_induction with
  | step json ih =>
    intro level n fits room
    have inside : ¬ levelLimit < level := by omega
    cases json with
    | null | bool _ | str _ => simp [ofJson, toJsonAt, Json.dotted, inside]
    | num x =>
      rw [Json.dotted, fits_num] at fits
      simp [ofJson, toJsonAt, Json.dotted, inside, numberJson_of_finite fits]
    | arr items =>
      rw [dotted_arr, fits_arr, List.forall_mem_map] at fits
      rw [ofJson, toJsonAt, if_neg inside, dotted_arr]
      simp [itemsToJson_ofItems ih fits room]
    | obj members =>
      by_cases tagged : HasTag (.obj members)
      · obtain ⟨key, args, rfl⟩ := tagged.eq_single
        obtain ⟨tag, short⟩ := Option.isSome_iff_exists.mp ((shortTag?_isSome_iff key args).mpr tagged)
        rw [ofJson_tagged short, toJsonAt, if_neg inside]
        simp only [bind_eq_ok, pure_eq_ok, longKey_of_shortTag? short]
        -- Only the arguments of an attribute are written otherwise than by `ofJson`, as one text.
        by_cases reads : IsAttribute (.obj [(key, args)])
        · obtain ⟨resource, name, same⟩ := reads.eq
          cases same
          rw [dotted_attribute, fits_single] at fits
          have below : ¬ levelLimit < level + 1 := by omega
          rw [dotted_attribute]
          refine ⟨.str (resource ++ "." ++ name), ?_, rfl⟩
          simp [ofArgs, dotted?, toJsonAt, below]
        · rw [dotted_obj reads] at fits ⊢
          obtain ⟨depth, fits⟩ := (fits_single n key _).mp fits
          refine ⟨args.dotted, ?_, rfl⟩
          rw [ofArgs, dotted?_of_not_isAttribute reads]
          exact ih args (List.mem_singleton.mpr rfl) fits (by omega)
      · have other : ¬ IsAttribute (.obj members) := by
          intro reads
          obtain ⟨resource, name, same⟩ := reads.eq
          cases same
          exact tagged (Or.inl ⟨.getAtt, by decide, by decide, rfl⟩)
        rw [dotted_obj other, fits_obj, values_mapEntries, List.forall_mem_map] at fits
        rw [ofJson_plain tagged, toJsonAt, if_neg inside, dotted_obj other]
        simp [entriesToJson_ofMembers ih fits.2 room, collectMembers_of_nodup fits.1]

/-! ### Documents of trees -/

theorem numberJson_fits (n : Number) (depth : Nat) : (numberJson n).Fits depth := by
  cases n with
  | int i => exact (fits_num _ _).mpr trivial
  | float x =>
    rw [numberJson]
    split
    · exact (fits_num _ _).mpr ‹_›
    · simp

mutual

theorem toJsonAt_fits {level : Nat} (tree : Tree) {json : Json} (done : toJsonAt level tree = .ok json) :
    level ≤ levelLimit ∧ json.Fits (levelLimit - level) := by
  unfold toJsonAt at done
  split at done
  · exact absurd done (throw_ne_ok _ _)
  · rename_i inside
    refine ⟨by omega, ?_⟩
    cases tree with
    | null | bool _ | str _ =>
      obtain rfl := (pure_eq_ok _ _).mp done
      simp
    | num n =>
      obtain rfl := (pure_eq_ok _ _).mp done
      exact numberJson_fits n _
    | seq items =>
      obtain ⟨docs, inner, rfl⟩ := (map_eq_ok _ _ _).mp done
      rw [fits_arr]
      intro w member
      have below := itemsToJson_fits items inner w member
      exact ⟨by omega, Nat.sub_sub levelLimit level 1 ▸ below.2⟩
    | map entries =>
      obtain ⟨docs, inner, rfl⟩ := (map_eq_ok _ _ _).mp done
      refine (fits_obj _ _).mpr ⟨nodup_collectMembers docs, fun w member => ?_⟩
      obtain ⟨e, collected, rfl⟩ := List.mem_map.mp member
      have below := entriesToJson_fits entries inner e (mem_collectMembers e collected)
      exact ⟨by omega, Nat.sub_sub levelLimit level 1 ▸ below.2⟩
    | tagged name value =>
      simp only [bind_eq_ok, pure_eq_ok] at done
      obtain ⟨doc, inner, rfl⟩ := done
      have below := toJsonAt_fits value inner
      rw [fits_single]
      exact ⟨by omega, Nat.sub_sub levelLimit level 1 ▸ below.2⟩

theorem itemsToJson_fits {level : Nat} (items : List Tree) {docs : List Json} (done : itemsToJson level items = .ok docs) :
    ∀ doc ∈ docs, level ≤ levelLimit ∧ doc.Fits (levelLimit - level) := by
  cases items with
  | nil =>
    obtain rfl := (pure_eq_ok _ _).mp done
    simp
  | cons item rest =>
    simp only [itemsToJson, bind_eq_ok, pure_eq_ok] at done
    obtain ⟨doc, first, docs, later, rfl⟩ := done
    rw [List.forall_mem_cons]
    exact ⟨toJsonAt_fits item first, itemsToJson_fits rest later⟩

theorem entriesToJson_fits {level : Nat} (entries : List (Tree × Tree)) {docs : List (String × Json)}
    (done : entriesToJson level entries = .ok docs) :
    ∀ e ∈ docs, level ≤ levelLimit ∧ e.2.Fits (levelLimit - level) := by
  cases entries with
  | nil =>
    obtain rfl := (pure_eq_ok _ _).mp done
    simp
  | cons entry rest =>
    obtain ⟨key, value⟩ := entry
    simp only [entriesToJson, bind_eq_ok, pure_eq_ok] at done
    obtain ⟨name, -, doc, first, docs, later, rfl⟩ := done
    rw [List.forall_mem_cons]
    exact ⟨toJsonAt_fits value first, entriesToJson_fits rest later⟩

end

/-! ### There and back -/

/-- A document of at most 512 levels comes back from its tree with its attributes dotted and all else
    as it was. What comes back so is exactly what has no more levels once the dots are put, where a
    list of two texts no longer counts. -/
theorem toJson_ofJson_eq_dotted (json : Json) :
    (json.Fits 512 → toJson (ofJson json) = .ok json.dotted) ∧
      (toJson (ofJson json) = .ok json.dotted ↔ json.dotted.Fits 512) := by
  have back (fits : json.dotted.Fits levelLimit) : toJson (ofJson json) = .ok json.dotted :=
    readBack json fits (Nat.le_of_eq (Nat.zero_add levelLimit))
  exact ⟨fun fits => back fits.dotted, fun done => (toJsonAt_fits (ofJson json) done).2, back⟩

/-- Objects that look like calls: a lone member with the name of a function, a condition that is no
    name, and a transform, which has no tag. -/
def lookalikes (args : Json) : Json :=
  .obj [("Ref", .obj [("Condition", .arr [.num (.int 1), .num (.float (.ofInt 1)),
    .obj [("Fn::Transform", .obj [("Fn::GetAtt", args)])]])])]

theorem toJson_ofJson_lookalikes :
    (lookalikes (.arr [.str "Db", .str "Endpoint.Port"])).Fits 512 ∧
      toJson (ofJson (lookalikes (.arr [.str "Db", .str "Endpoint.Port"]))) = .ok (lookalikes (.str "Db.Endpoint.Port")) := by
  have finite : (Binary64.ofInt 1).isFinite = true := by decide
  have fits : (lookalikes (.arr [.str "Db", .str "Endpoint.Port"])).Fits 512 := by
    simp [lookalikes, fits_arr, Number.Finite, finite]
  exact ⟨fits, (toJson_ofJson_eq_dotted _).1 fits⟩

end StackCompiler.Yaml.Tree
