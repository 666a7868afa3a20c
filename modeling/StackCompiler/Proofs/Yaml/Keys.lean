import StackCompiler.Proofs.Members
import StackCompiler.Proofs.Nesting
import StackCompiler.Proofs.Number.Text
import StackCompiler.Proofs.Outcome
import StackCompiler.Template.ShortForm

/-!
Keys that become names. Two keys that are no texts are spelled alike only where they are the same key
(`same_of_keyText`), but a text may be spelled like any of them: then two entries become one member.
-/
namespace StackCompiler.Yaml.Tree

/-! ### Nodes of trees -/

/-- `w` is a value that stands right inside a tree. -/
def Inner (w : Tree) : Tree → Prop
  | .seq items => w ∈ items
  | .map entries => w ∈ entries.map (·.2)
  | .tagged _ value => w = value
  | _ => False

/-- The tree and every value inside it satisfy `P`. -/
def Throughout (P : Tree → Prop) (tree : Tree) : Prop := ∀ w, Relation.ReflTransGen Inner w tree → P w

theorem throughout_iff (P : Tree → Prop) (tree : Tree) :
    Throughout P tree ↔ P tree ∧ ∀ w, Inner w tree → Throughout P w :=
  forall_node_iff tree

theorem throughout_null (P : Tree → Prop) : Throughout P .null ↔ P .null :=
  (throughout_iff P .null).trans (and_iff_left fun _ inner => inner.elim)

theorem throughout_seq (P : Tree → Prop) (items : List Tree) :
    Throughout P (.seq items) ↔ P (.seq items) ∧ ∀ w ∈ items, Throughout P w :=
  throughout_iff P (.seq items)

theorem throughout_map (P : Tree → Prop) (entries : List (Tree × Tree)) :
    Throughout P (.map entries) ↔ P (.map entries) ∧ ∀ w ∈ entries.map (·.2), Throughout P w :=
  throughout_iff P (.map entries)

theorem inner_smaller {w tree : Tree} (inner : Inner w tree) : sizeOf w < sizeOf tree := by
  cases tree with
  | seq items =>
    have : sizeOf w < sizeOf items := List.sizeOf_lt_of_mem inner
    simp only [seq.sizeOf_spec]
    omega
  | map entries =>
    have := sizeOf_lt_of_mem_values inner
    simp only [map.sizeOf_spec]
    omega
  | tagged name value =>
    obtain rfl : w = value := inner
    simp only [tagged.sizeOf_spec]
    omega
  | null | bool _ | num _ | str _ => exact inner.elim

/-- What holds of a tree whenever it holds of the values right inside it holds of every tree. -/
theorem inner_induction {P : Tree → Prop} (step : ∀ tree, (∀ w, Inner w tree → P w) → P tree) (tree : Tree) : P tree :=
  step tree fun w _ => inner_induction step w
termination_by sizeOf tree
decreasing_by exact inner_smaller ‹_›

/-! ### Spelling of keys -/

variable {a b : Tree} {s : String}

/-- The keys that are spelled as words of their own. -/
def words : List (Tree × String) := [(.null, "null"), (.bool true, "true"), (.bool false, "false")]

theorem keyText_cases (key : keyText a = .ok s) (other : a ≠ .str s) :
    (∃ n : Number, a = .num n ∧ n.text .yaml = s) ∨ (a, s) ∈ words := by
  cases a with
  | null => exact .inr (by simp_all [keyText, words])
  | bool x => cases x <;> exact .inr (by simp_all [keyText, words])
  | num n => exact .inl ⟨n, rfl, by simpa [keyText] using key⟩
  | str t =>
    obtain rfl : t = s := by simpa [keyText] using key
    exact absurd rfl other
  | seq _ | map _ | tagged _ _ => exact absurd key (throw_ne_ok _ _)

theorem text_ne_of_mem_words (n : Number) (word : (a, s) ∈ words) : n.text .yaml ≠ s := by
  simp only [words, List.mem_cons, Prod.mk.injEq, List.not_mem_nil, or_false] at word
  rcases word with ⟨-, rfl⟩ | ⟨-, rfl⟩ | ⟨-, rfl⟩
  · exact n.text_ne_word (c := 'n') rfl (by decide)
  · exact n.text_ne_word (c := 't') rfl (by decide)
  · exact n.text_ne_word (c := 'f') rfl (by decide)

theorem same_of_mem_words (first : (a, s) ∈ words) (second : (b, s) ∈ words) : same a b = true := by
  simp only [words, List.mem_cons, Prod.mk.injEq, List.not_mem_nil, or_false] at first second
  rcases first with ⟨rfl, rfl⟩ | ⟨rfl, rfl⟩ | ⟨rfl, rfl⟩ <;> simp at second <;> subst second <;> simp [same]

/-- Keys that are no texts and are spelled alike are the same key. -/
theorem same_of_keyText (first : keyText a = .ok s) (second : keyText b = .ok s) (aOther : a ≠ .str s)
    (bOther : b ≠ .str s) : same a b = true := by
  rcases keyText_cases first aOther with ⟨n, rfl, written⟩ | word
  · rcases keyText_cases second bOther with ⟨m, rfl, writtenToo⟩ | word
    · rw [same]
      exact sameKeyNumber_of_text (written.trans writtenToo.symm)
    · exact absurd written (text_ne_of_mem_words n word)
  · rcases keyText_cases second bOther with ⟨m, rfl, written⟩ | wordToo
    · exact absurd written (text_ne_of_mem_words m word)
    · exact same_of_mem_words word wordToo

/-- The keys of a mapping are pairwise distinct. -/
def KeysDistinct : Tree → Prop
  | .map entries => entries.Pairwise fun e f => same e.1 f.1 = false
  | _ => True

/-- No key of a mapping that is no text is spelled like a text key beside it. -/
def KeysApart : Tree → Prop
  | .map entries => ∀ e ∈ entries, ∀ s, keyText e.1 = .ok s → e.1 ≠ .str s → ∀ f ∈ entries, f.1 ≠ .str s
  | _ => True

/-! ### A member for every entry -/

/-- The name that a key becomes. -/
def spelled (key : Tree) : String :=
  match keyText key with
  | .ok name => name
  | .error _ => ""

mutual

/-- The document of a tree with a member for every entry, whatever its name. -/
def entire : Tree → Json
  | .null => .null
  | .bool b => .bool b
  | .num n => numberJson n
  | .str s => .str s
  | .seq items => .arr (entireItems items)
  | .map entries => .obj (entireEntries entries)
  | .tagged name value => .obj [(longKey name, entire value)]

def entireItems : List Tree → List Json
  | [] => []
  | item :: rest => entire item :: entireItems rest

def entireEntries : List (Tree × Tree) → List (String × Json)
  | [] => []
  | (key, value) :: rest => (spelled key, entire value) :: entireEntries rest

end

theorem entireItems_eq_map (items : List Tree) : entireItems items = items.map entire := by
  induction items with
  | nil => rfl
  | cons item rest ih => exact congrArg (entire item :: ·) ih

theorem entireEntries_eq_map (entries : List (Tree × Tree)) :
    entireEntries entries = entries.map fun e => (spelled e.1, entire e.2) := by
  induction entries with
  | nil => rfl
  | cons e rest ih => exact congrArg ((spelled e.1, entire e.2) :: ·) ih

theorem itemsToJson_eq_ok_iff (level : Nat) (items : List Tree) (docs : List Json) :
    itemsToJson level items = .ok docs ↔ List.Forall₂ (fun item json => toJsonAt level item = .ok json) items docs := by
  induction items generalizing docs with
  | nil =>
    rw [itemsToJson, pure_eq_ok, List.forall₂_nil_left_iff]
    exact eq_comm
  | cons item rest ih =>
    simp only [itemsToJson, bind_eq_ok, pure_eq_ok, ih, List.forall₂_cons_left_iff]
    constructor
    · rintro ⟨json, first, docs, later, rfl⟩
      exact ⟨json, docs, first, later, rfl⟩
    · rintro ⟨json, docs, first, later, rfl⟩
      exact ⟨json, first, docs, later, rfl⟩

theorem entriesToJson_eq_ok_iff (level : Nat) (entries : List (Tree × Tree)) (members : List (String × Json)) :
    entriesToJson level entries = .ok members ↔
      List.Forall₂ (fun e m => keyText e.1 = .ok m.1 ∧ toJsonAt level e.2 = .ok m.2) entries members := by
  induction entries generalizing members with
  | nil =>
    rw [entriesToJson, pure_eq_ok, List.forall₂_nil_left_iff]
    exact eq_comm
  | cons e rest ih =>
    simp only [entriesToJson, bind_eq_ok, pure_eq_ok, ih, List.forall₂_cons_left_iff]
    constructor
    · rintro ⟨name, key, json, value, members, later, rfl⟩
      exact ⟨(name, json), members, ⟨key, value⟩, later, rfl⟩
    · rintro ⟨m, members, first, later, rfl⟩
      exact ⟨m.1, first.1, m.2, first.2, members, later, rfl⟩

theorem spelled_of_keyText (key : keyText a = .ok s) : spelled a = s := by
  rw [spelled, key]

section Entries

variable {level : Nat} {entries : List (Tree × Tree)} {members : List (String × Json)}

theorem memberNames_eq_spelled (done : entriesToJson level entries = .ok members) :
    memberNames members = entries.map fun e => spelled e.1 := by
  rw [entriesToJson_eq_ok_iff] at done
  induction done with
  | nil => rfl
  | cons first _ ih =>
    rw [memberNames, List.map_cons, List.map_cons, spelled_of_keyText first.1]
    exact congrArg _ ih

/-- Distinct keys get distinct names exactly where they are apart. -/
theorem nodup_spelled_iff (keyed : ∀ e ∈ entries, keyText e.1 = .ok (spelled e.1))
    (distinct : KeysDistinct (.map entries)) :
    (entries.map fun e => spelled e.1).Nodup ↔ KeysApart (.map entries) := by
  constructor
  · intro named e member s key other f beside text
    have spelledAlike : spelled e.1 = spelled f.1 := by
      rw [spelled_of_keyText key, text]
      rfl
    rw [List.inj_on_of_nodup_map named member beside spelledAlike] at other
    exact other text
  · intro apart
    rw [List.Nodup, List.pairwise_map]
    refine distinct.imp_of_mem fun {e f} member beside differ alike => ?_
    have key := keyed e member
    have keyToo := keyed f beside
    rw [← alike] at keyToo
    -- the two are texts, or neither is, or one is spelled like the other's text
    by_cases eText : e.1 = .str (spelled e.1)
    · by_cases fText : f.1 = .str (spelled e.1)
      · rw [eText, fText, same, beq_self_eq_true] at differ
        cases differ
      · exact apart f beside _ keyToo fText e member eText
    · by_cases fText : f.1 = .str (spelled e.1)
      · exact apart e member _ key eText f beside fText
      · rw [same_of_keyText key keyToo eText fText] at differ
        cases differ

theorem nodup_memberNames_iff (distinct : KeysDistinct (.map entries))
    (done : entriesToJson level entries = .ok members) : (memberNames members).Nodup ↔ KeysApart (.map entries) := by
  have keyed : ∀ e ∈ entries, keyText e.1 = .ok (spelled e.1) := by
    refine (forall_mem_iff_of_forall₂ (Q := fun _ => True) ((entriesToJson_eq_ok_iff level entries members).mp done)
      fun e _ m converted => ?_).mpr fun _ _ => trivial
    rw [spelled_of_keyText converted.1]
    exact iff_of_true converted.1 trivial
  rw [memberNames_eq_spelled done, nodup_spelled_iff keyed distinct]

/-- A mapping becomes an object of as many members exactly where its keys are apart. -/
theorem length_collected_iff (distinct : KeysDistinct (.map entries))
    (done : entriesToJson level entries = .ok members) :
    (collectMembers members).length = entries.length ↔ KeysApart (.map entries) := by
  rw [((entriesToJson_eq_ok_iff level entries members).mp done).length_eq, length_collectMembers_eq_iff,
    nodup_memberNames_iff distinct done]

end Entries

/-! ### Whole trees -/

/-- A tree becomes the document with a member for every entry exactly where its keys are apart. -/
def KeepsEntries (tree : Tree) : Prop :=
  ∀ {level : Nat} {json : Json}, Throughout KeysDistinct tree → toJsonAt level tree = .ok json →
    (json = tree.entire ↔ Throughout KeysApart tree)

variable {level : Nat} {json : Json}

theorem entire_seq_iff {items : List Tree} {docs : List Json} (each : ∀ w ∈ items, KeepsEntries w)
    (distinct : ∀ w ∈ items, Throughout KeysDistinct w) (done : itemsToJson level items = .ok docs) :
    docs = items.map entire ↔ ∀ w ∈ items, Throughout KeysApart w :=
  eq_map_iff_of_forall₂ ((itemsToJson_eq_ok_iff level items docs).mp done)
    fun item member _ converted => each item member (distinct item member) converted

theorem entire_map_iff {entries : List (Tree × Tree)} {members : List (String × Json)}
    (each : ∀ w ∈ entries.map (·.2), KeepsEntries w) (here : KeysDistinct (.map entries))
    (below : ∀ w ∈ entries.map (·.2), Throughout KeysDistinct w) (done : entriesToJson level entries = .ok members) :
    collectMembers members = entireEntries entries ↔
      KeysApart (.map entries) ∧ ∀ w ∈ entries.map (·.2), Throughout KeysApart w := by
  have names := nodup_memberNames_iff here done
  have inside : members = entireEntries entries ↔ ∀ w ∈ entries.map (·.2), Throughout KeysApart w := by
    rw [entireEntries_eq_map, List.forall_mem_map]
    have related := (entriesToJson_eq_ok_iff level entries members).mp done
    refine eq_map_iff_of_forall₂ related fun e member m converted => ?_
    have value := List.mem_map_of_mem (f := (·.2)) member
    rw [Prod.ext_iff, spelled_of_keyText converted.1, and_iff_right rfl]
    exact each e.2 value (below e.2 value) converted.2
  constructor
  · intro whole
    have apart : KeysApart (.map entries) := by
      rw [← length_collected_iff here done, whole, entireEntries_eq_map, List.length_map]
    rw [collectMembers_of_nodup (names.mpr apart)] at whole
    exact ⟨apart, inside.mp whole⟩
  · rintro ⟨apart, values⟩
    rw [collectMembers_of_nodup (names.mpr apart)]
    exact inside.mpr values

theorem keepsEntries (tree : Tree) : KeepsEntries tree := by
  induction tree using inner_induction with
  | step tree ih =>
    intro level json distinct done
    rw [throughout_iff] at distinct ⊢
    unfold toJsonAt at done
    split at done
    · exact absurd done (throw_ne_ok _ _)
    · cases tree with
      | null | bool _ | num _ | str _ =>
        obtain rfl := (pure_eq_ok _ _).mp done
        exact iff_of_true rfl ⟨trivial, fun w inner => inner.elim⟩
      | seq items =>
        obtain ⟨docs, converted, rfl⟩ := (map_eq_ok _ _ _).mp done
        rw [entire, entireItems_eq_map, Json.arr.injEq, entire_seq_iff ih distinct.2 converted]
        exact (and_iff_right trivial).symm
      | map entries =>
        obtain ⟨members, converted, rfl⟩ := (map_eq_ok _ _ _).mp done
        rw [entire, Json.obj.injEq]
        exact entire_map_iff ih distinct.1 distinct.2 converted
      | tagged name value =>
        obtain ⟨doc, converted, rest⟩ := (bind_eq_ok _ _ _).mp done
        obtain rfl := (pure_eq_ok _ _).mp rest
        have kept := ih value rfl (distinct.2 value rfl) converted
        rw [entire]
        constructor
        · intro whole
          have same : doc = value.entire := by simpa using whole
          exact ⟨trivial, fun w inner => (show w = value from inner) ▸ kept.mp same⟩
        · intro apart
          rw [kept.mpr (apart.2 value rfl)]

/-- A tree with distinct keys becomes the document with a member for every entry, at every depth, exactly where
    no key that is no text is spelled like a text key beside it. A mapping loses none of its own entries
    exactly where its own keys are apart. -/
theorem toJson_keeps_entries_iff {tree : Tree} {json : Json} (distinct : Throughout KeysDistinct tree)
    (done : toJson tree = .ok json) :
    (json = tree.entire ↔ Throughout KeysApart tree) ∧
      ∀ entries, tree = .map entries →
        ∃ members, json = .obj members ∧ (members.length = entries.length ↔ KeysApart (.map entries)) := by
  refine ⟨keepsEntries tree distinct done, ?_⟩
  rintro entries rfl
  obtain ⟨members, converted, rfl⟩ := (map_eq_ok _ _ _).mp done
  exact ⟨_, rfl, length_collected_iff ((throughout_iff _ _).mp distinct).1 converted⟩

/-- Keys of every kind, two of them spelled much alike. -/
def ports : Tree :=
  .map [(.str "Ports", .seq [.map [(.num (.int 80), .null), (.str "080", .null), (.bool true, .null), (.null, .null)]])]

theorem ports_kept : Throughout KeysDistinct ports ∧ Throughout KeysApart ports ∧
    toJson ports = .ok ports.entire := by
  have distinct : Throughout KeysDistinct ports := by
    simp [ports, throughout_map, throughout_seq, throughout_null, KeysDistinct, same]
  have eighty : Number.text .yaml (.int 80) = "80" := rfl
  have apart : Throughout KeysApart ports := by
    simp [ports, throughout_map, throughout_seq, throughout_null, KeysApart, keyText, eighty]
  obtain ⟨json, done⟩ : ∃ json, toJson ports = .ok json := ⟨_, rfl⟩
  exact ⟨distinct, apart, (toJson_keeps_entries_iff distinct done).1.mpr apart ▸ done⟩

/-- A number and the text that spells it are two keys of one mapping, and one name. -/
theorem number_overwritten : KeysDistinct (.map [(.num (.int 80), .str "plain"), (.str "80", .str "quoted")]) ∧
    toJson (.map [(.num (.int 80), .str "plain"), (.str "80", .str "quoted")]) =
      .ok (.obj [("80", .str "quoted")]) := by
  refine ⟨?_, rfl⟩
  simp [KeysDistinct, same]

end StackCompiler.Yaml.Tree
