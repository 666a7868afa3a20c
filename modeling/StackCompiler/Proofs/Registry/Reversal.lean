import StackCompiler.Proofs.Registry.Module

/-!
From declared types to canonical ones and back. No two namespaces share a short name or a
canonical spelling (`eq_of_short`, `canonical_unique`), so the namespace and the kind of a
canonical type can be told from it, unless the kind has colons that move the last double
colon (`ofCanonical?_eq_some_iff`).
-/
namespace StackCompiler

namespace Namespace

/-! ### The table -/

/-- Past the first two rows, the table is in the order of the short names. -/
theorem short_sorted : ((all.drop 2).map (Text.bytes ·.short)).IsChain (· < ·) := by decide +kernel

/-- The short names of the first two rows, which are out of order, come nowhere else. -/
theorem short_outside : ∀ ns ∈ all.drop 2, Text.bytes ns.short ∉ (all.take 2).map (Text.bytes ·.short) := by
  decide +kernel

/-- A capital letter as a small one; other bytes stay. -/
def lowerByte (b : UInt8) : UInt8 := if 65 ≤ b ∧ b ≤ 90 then b + 32 else b

/-- A short name is the canonical spelling in small letters. -/
theorem short_eq_lower : ∀ ns ∈ all, Text.bytes ns.short = (Text.bytes ns.name).map lowerByte := by decide +kernel

theorem short_nodup : (all.map (Text.bytes ·.short)).Nodup := by
  have early : ((all.take 2).map (Text.bytes ·.short)).Nodup := by decide +kernel
  have late : ((all.drop 2).map (Text.bytes ·.short)).Nodup := by
    refine short_sorted.pairwise.imp fun less => ?_
    rintro rfl
    exact List.lt_irrefl _ less
  rw [← List.take_append_drop 2 all, List.map_append, List.nodup_append]
  refine ⟨early, late, fun a first b second same => ?_⟩
  obtain ⟨ns, member, rfl⟩ := List.mem_map.mp second
  exact short_outside ns member (same ▸ first)

variable {ns other : Namespace}

theorem eq_of_short (known : ns ∈ all) (knownToo : other ∈ all) (same : ns.short = other.short) : ns = other :=
  List.inj_on_of_nodup_map short_nodup known knownToo (congrArg Text.bytes same)

/-- A canonical type is of one namespace and one kind, whatever colons the kind has. -/
theorem canonical_unique {kind kindToo : String} (known : ns ∈ all) (knownToo : other ∈ all)
    (same : ns.qualified ++ "::" ++ kind = other.qualified ++ "::" ++ kindToo) : ns = other ∧ kind = kindToo := by
  obtain ⟨ownerPlain, namePlain⟩ := plain_of_mem ns known
  obtain ⟨ownerPlainToo, namePlainToo⟩ := plain_of_mem other knownToo
  have aligned : ns.owner.toList ++ ':' :: (':' :: (ns.name.toList ++ ':' :: (':' :: kind.toList))) =
      other.owner.toList ++ ':' :: (':' :: (other.name.toList ++ ':' :: (':' :: kindToo.toList))) := by
    simpa [qualified] using congrArg String.toList same
  obtain ⟨-, later⟩ := Text.first_mark_unique (Text.colon_not_mem ownerPlain) (Text.colon_not_mem ownerPlainToo) aligned
  obtain ⟨name, rest⟩ := Text.first_mark_unique (Text.colon_not_mem namePlain) (Text.colon_not_mem namePlainToo)
    (List.cons.inj later).2
  have spelled : ns.name = other.name := String.toList_inj.mp name
  refine ⟨List.inj_on_of_nodup_map short_nodup known knownToo ?_, String.toList_inj.mp (List.cons.inj rest).2⟩
  rw [short_eq_lower ns known, short_eq_lower other knownToo, spelled]

/-! ### Looking up -/

theorem find?_key_eq_some_iff {key : Namespace → String}
    (unique : ∀ ns ∈ all, ∀ other ∈ all, key ns = key other → ns = other) (sought : String) (ns : Namespace) :
    all.find? (key · == sought) = some ns ↔ ns ∈ all ∧ key ns = sought := by
  constructor
  · intro found
    exact ⟨List.mem_of_find?_eq_some found, by simpa using List.find?_some found⟩
  · rintro ⟨known, rfl⟩
    cases found : all.find? (key · == key ns) with
    | none => exact absurd (beq_self_eq_true (key ns)) (List.find?_eq_none.mp found ns known)
    | some other =>
      have same : key other = key ns := by simpa using List.find?_some found
      rw [unique other (List.mem_of_find?_eq_some found) ns known same]

theorem ofShort?_eq_some_iff (short : String) (ns : Namespace) :
    ofShort? short = some ns ↔ ns ∈ all ∧ ns.short = Text.asciiLower short :=
  find?_key_eq_some_iff (fun _ known _ knownToo => eq_of_short known knownToo) _ _

theorem ofQualified?_eq_some_iff (qualified : String) (ns : Namespace) :
    ofQualified? qualified = some ns ↔ ns ∈ all ∧ ns.qualified = qualified := by
  refine find?_key_eq_some_iff (fun _ known _ knownToo same => ?_) _ _
  exact (canonical_unique known knownToo (congrArg (· ++ "::" ++ "") same)).1

/-- Short names are in small letters already. -/
theorem asciiLower_short (known : ns ∈ all) : Text.asciiLower ns.short = ns.short := by
  rw [← String.toList_inj, Text.asciiLower, String.toList_map, List.map_congr_left (g := id), List.map_id]
  intro c member
  have small := (short_small known).1 c member
  rw [Text.isSmall, Bool.or_eq_true, Text.isLower_iff_code, Char.isDigit_iff_toNat] at small
  refine dif_neg fun upper => ?_
  have digits : '0'.toNat = 48 ∧ '9'.toNat = 57 := ⟨rfl, rfl⟩
  have range : 65 ≤ c.toNat ∧ c.toNat ≤ 90 := upper.imp UInt32.le_iff_toNat_le.mp UInt32.le_iff_toNat_le.mp
  omega

theorem short_ne_empty (known : ns ∈ all) : ns.short ≠ "" := by
  obtain ⟨-, c, first, -⟩ := short_small known
  intro empty
  rw [empty] at first
  cases first

end Namespace

namespace DeclaredType

/-- A kind after which the last double colon of a canonical type is not the one before the kind: it
    has one itself, or its first colon and the one before it are one. -/
def MovesMark (kind : String) : Prop :=
  [':', ':'] <:+: kind.toList ∨ kind.toList.head? = some ':'

instance (kind : String) : Decidable (MovesMark kind) :=
  inferInstanceAs (Decidable (_ ∨ _))

theorem movesMark_iff (kind : String) : MovesMark kind ↔ [':', ':'] <:+: ':' :: kind.toList := by
  rw [MovesMark, List.infix_cons_iff, List.cons_prefix_cons, or_comm]
  cases kind.toList with
  | nil => simp
  | cons c rest => simp [List.cons_prefix_cons, eq_comm]

theorem ofCanonical?_eq_some_iff (canonical : String) (t : DeclaredType) :
    ofCanonical? canonical = some t ↔ t.ns ∈ Namespace.all ∧ t.kind ≠ "" ∧ ¬ MovesMark t.kind ∧
      canonical = t.ns.qualified ++ "::" ++ t.kind := by
  simp only [ofCanonical?, Option.bind_eq_bind, Option.bind_eq_some_iff, Prod.exists,
    Text.splitLast?_marks_eq_some_iff (List.cons_ne_nil ':' [':'])]
  constructor
  · rintro ⟨qualified, kind, ⟨split, last⟩, rest⟩
    split at rest
    · cases rest
    · rename_i filled
      simp only [Option.bind_eq_some_iff] at rest
      obtain ⟨ns, found, made⟩ := rest
      obtain rfl := Option.some.inj made
      obtain ⟨known, same⟩ := (Namespace.ofQualified?_eq_some_iff _ _).mp found
      refine ⟨known, by simpa using filled, ?_, ?_⟩
      · rw [movesMark_iff, String.toList_ofList]
        exact last
      · rw [same]
        exact String.toList_inj.mp (by simp [split])
  · rintro ⟨known, filled, still, rfl⟩
    rw [movesMark_iff] at still
    refine ⟨t.ns.qualified.toList, t.kind.toList, ⟨by simp, still⟩, ?_⟩
    have found := (Namespace.ofQualified?_eq_some_iff t.ns.qualified t.ns).mpr ⟨known, rfl⟩
    simp [filled, found]

/-- The registry can be reversed. What a declared type resolves to leads back to the one namespace
    with its short name and to its kind, unless the kind moves the last double colon: then it leads
    nowhere. What a canonical type leads back to resolves to it exactly if the kind has no dot. -/
theorem canonical_reversible :
    (∀ start kind canonical, '.' ∉ kind.toList → canonical? (start ++ "." ++ kind) = some canonical →
      (MovesMark kind → ofCanonical? canonical = none) ∧
      (¬ MovesMark kind → ∃ ns ∈ Namespace.all,
        (∀ other ∈ Namespace.all, other.short = Text.asciiLower start ↔ other = ns) ∧
          ofCanonical? canonical = some ⟨ns, kind⟩)) ∧
    ∀ canonical t, ofCanonical? canonical = some t → ('.' ∉ t.kind.toList ↔ canonical? t.text = some canonical) := by
  refine ⟨fun start kind canonical last resolved => ?_, fun canonical t reversed => ?_⟩
  · obtain ⟨before, after, ns, split, lastToo, -, filled, found, rfl⟩ := (canonical?_eq_some_iff _ _).mp resolved
    obtain ⟨rfl, rfl⟩ := cut_unique last lastToo split
    obtain ⟨known, short⟩ := (Namespace.ofShort?_eq_some_iff _ _).mp found
    constructor
    · intro moves
      refine Option.eq_none_iff_forall_ne_some.mpr fun t reversed => ?_
      obtain ⟨knownToo, -, still, same⟩ := (ofCanonical?_eq_some_iff _ t).mp reversed
      exact still ((Namespace.canonical_unique known knownToo same).2 ▸ moves)
    · intro still
      refine ⟨ns, known, fun other knownToo => ⟨fun shortToo => ?_, fun same => same ▸ short⟩, ?_⟩
      · exact Namespace.eq_of_short knownToo known (shortToo.trans short.symm)
      · exact (ofCanonical?_eq_some_iff _ ⟨ns, kind⟩).mpr ⟨known, filled, still, rfl⟩
  · obtain ⟨known, filled, -, rfl⟩ := (ofCanonical?_eq_some_iff _ _).mp reversed
    constructor
    · intro dotless
      have found := (Namespace.ofShort?_eq_some_iff _ _).mpr ⟨known, (Namespace.asciiLower_short known).symm⟩
      exact (canonical?_eq_some_iff _ _).mpr
        ⟨t.ns.short, t.kind, t.ns, rfl, dotless, Namespace.short_ne_empty known, filled, found, rfl⟩
    · intro resolved
      obtain ⟨start, kind, ns, -, last, -, -, found, same⟩ := (canonical?_eq_some_iff _ _).mp resolved
      obtain ⟨-, rfl⟩ := Namespace.canonical_unique known ((Namespace.ofShort?_eq_some_iff _ _).mp found).1 same
      exact last

/-- One colon inside a kind does no harm, one at its start does. -/
theorem canonical_reversible_colons :
    canonical? ("IoT1Click" ++ "." ++ "Project:1") = some "AWS::IoT1Click::Project:1" ∧ ¬ MovesMark "Project:1" ∧
      (∃ ns ∈ Namespace.all, (∀ other ∈ Namespace.all, other.short = Text.asciiLower "IoT1Click" ↔ other = ns) ∧
        ofCanonical? "AWS::IoT1Click::Project:1" = some ⟨ns, "Project:1"⟩) ∧
    canonical? ("IoT1Click" ++ "." ++ ":Project") = some "AWS::IoT1Click:::Project" ∧ MovesMark ":Project" ∧
      ofCanonical? "AWS::IoT1Click:::Project" = none ∧
    ofCanonical? "Alexa::ASK::Skill" = some ⟨⟨"ask", "Alexa", "ASK"⟩, "Skill"⟩ ∧ '.' ∉ "Skill".toList ∧
      canonical? "ask.Skill" = some "Alexa::ASK::Skill" := by
  have inside : canonical? ("IoT1Click" ++ "." ++ "Project:1") = some "AWS::IoT1Click::Project:1" := by decide +kernel
  have first : canonical? ("IoT1Click" ++ "." ++ ":Project") = some "AWS::IoT1Click:::Project" := by decide +kernel
  have skill : ofCanonical? "Alexa::ASK::Skill" = some ⟨⟨"ask", "Alexa", "ASK"⟩, "Skill"⟩ := rfl
  exact ⟨inside, by decide, (canonical_reversible.1 _ _ _ (by decide) inside).2 (by decide),
    first, by decide, (canonical_reversible.1 _ _ _ (by decide) first).1 (by decide),
    skill, by decide, (canonical_reversible.2 _ _ skill).mp (by decide)⟩

end DeclaredType

end StackCompiler
