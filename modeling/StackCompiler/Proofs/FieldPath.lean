import StackCompiler.FieldPath
import StackCompiler.Proofs.Text.Cuts

/-!
Paths in text. A part between dots is read as a name and the positions in brackets after it. What
follows a closing bracket without an opening one is passed over (`parsePart_read`); a part whose
brackets cannot be read is a name as a whole (`parsePart_unread`).
-/
namespace StackCompiler.FieldPath

/-! ### Positions in brackets -/

/-- A position is digits, perhaps after a sign. -/
theorem mem_of_position? {cs : List Char} {n : Nat} (read : position? cs = some n) :
    ∀ c ∈ cs, c = '+' ∨ c.isDigit = true := by
  rw [position?] at read
  generalize unsigned : (if cs.head? == some '+' then cs.tail else cs) = digits at read
  dsimp only at read
  split at read
  · cases read
  · rename_i filled
    rw [Bool.or_eq_true, not_or, Bool.not_eq_true, Bool.not_eq_true, Bool.not_eq_false', List.all_eq_true] at filled
    cases cs with
    | nil => exact List.forall_mem_nil _
    | cons d rest =>
      by_cases sign : d = '+'
      · subst sign unsigned
        exact List.forall_mem_cons.mpr ⟨.inl rfl, fun c member => .inr (filled.2 c member)⟩
      · rw [List.head?_cons, Option.some_beq_some, beq_eq_false_iff_ne.mpr sign, if_neg Bool.false_ne_true] at unsigned
        exact fun c member => .inr (filled.2 c (unsigned ▸ member))

theorem bracket_not_mem_of_position? {cs : List Char} {n : Nat} (read : position? cs = some n) :
    '[' ∉ cs ∧ ']' ∉ cs := by
  have chars := mem_of_position? read
  exact ⟨fun member => absurd (chars _ member) (by decide), fun member => absurd (chars _ member) (by decide)⟩

theorem position?_toString {n : Nat} (small : n < twoPow 64) : position? (toString n).toList = some n := by
  rw [Nat.toString_eq_ofList_toDigits, String.toList_ofList]
  have digits : ∀ c ∈ Nat.toDigits 10 n, c.isDigit = true :=
    fun _ member => Nat.isDigit_of_mem_toDigits (by decide) (by decide) member
  have unsigned : ((Nat.toDigits 10 n).head? == some '+') = false := by
    rw [beq_eq_false_iff_ne]
    exact fun sign => absurd (digits '+' (List.mem_of_head? sign)) (by decide)
  have filled : ((Nat.toDigits 10 n).isEmpty || ! (Nat.toDigits 10 n).all Char.isDigit) = false := by
    rw [List.all_eq_true.mpr digits, Bool.or_eq_false_iff]
    exact ⟨List.isEmpty_eq_false_iff.mpr Nat.toDigits_ne_nil, rfl⟩
  have value : (Nat.toDigits 10 n).foldl (fun total d => 10 * total + (d.toNat - '0'.toNat)) 0 = n :=
    Nat.ofDigitChars_ten_toDigits
  rw [position?, unsigned]
  simp only [Bool.false_eq_true, if_false, filled, value, if_pos small]

/-- Positions in brackets, one right after the other, that name `ns`. -/
inductive Brackets : List Char → List Nat → Prop
  | nil : Brackets [] []
  | cons {digits rest : List Char} {n : Nat} {ns : List Nat} (read : position? digits = some n) (more : Brackets rest ns) :
      Brackets ('[' :: (digits ++ ']' :: rest)) (n :: ns)

namespace Brackets

variable {suffix rest : List Char} {ns : List Nat}

theorem append {more : List Char} {ms : List Nat} (first : Brackets suffix ns) (second : Brackets more ms) :
    Brackets (suffix ++ more) (ns ++ ms) := by
  induction first with
  | nil => exact second
  | cons read _ ih =>
    rw [List.cons_append, List.append_assoc, List.cons_append]
    exact .cons read ih

/-- Brackets end where no other bracket opens. -/
theorem eq_nil_of_append {ms : List Nat} (first : Brackets suffix ns) (ends : rest.head? ≠ some '[')
    (longer : Brackets (suffix ++ rest) ms) : rest = [] := by
  induction first generalizing ms with
  | nil =>
    cases longer with
    | nil => rfl
    | cons => exact absurd rfl ends
  | @cons digits inner n ns read _ ih =>
    generalize same : '[' :: (digits ++ ']' :: inner) ++ rest = text at longer
    cases longer with
    | nil => cases same
    | @cons other more m ms readToo brackets =>
      have aligned : digits ++ ']' :: (inner ++ rest) = other ++ ']' :: more := by simpa using same
      have closed := Text.first_mark_unique (bracket_not_mem_of_position? read).2
        (bracket_not_mem_of_position? readToo).2 aligned
      exact ih (closed.2 ▸ brackets)

theorem dotless (brackets : Brackets suffix ns) : '.' ∉ suffix := by
  induction brackets with
  | nil => exact List.not_mem_nil
  | cons read _ ih =>
    have digits : '.' ∉ _ := fun member => absurd (mem_of_position? read '.' member) (by decide)
    simp [digits, ih]

end Brackets

/-! ### Reading positions -/

variable {name suffix rest cs part : List Char} {ns : List Nat}

theorem uncut_of_not_mem {mark : Char} (unmarked : mark ∉ cs) : ∀ c ∈ cs, (c == mark) = false := by
  intro c member
  rw [beq_eq_false_iff_ne]
  rintro rfl
  exact unmarked member

/-- After a position and its closing bracket, reading goes on exactly where another bracket opens. -/
theorem positions?_closed {digits : List Char} {n : Nat} (read : position? digits = some n) (more : List Char) :
    positions? (Text.splitBy (· == '[') (digits ++ ']' :: more)) =
      if more.head? = some '[' then (positions? (Text.splitBy (· == '[') more.tail)).map (n :: ·) else some [n] := by
  obtain ⟨unopened, unclosed⟩ := bracket_not_mem_of_position? read
  have piece (after : List Char) (pieces : List (List Char)) : positions? ((digits ++ ']' :: after) :: pieces) =
      if after.isEmpty then (positions? pieces).map (n :: ·) else some [n] := by
    rw [positions?, Text.splitFirst?_append unclosed]
    simp only [Option.bind_eq_bind, Option.bind_some, read]
    split
    · cases positions? pieces <;> rfl
    · rfl
  have uncut : ∀ c ∈ digits ++ [']'], (c == '[') = false := uncut_of_not_mem (by simp [unopened])
  cases more with
  | nil =>
    rw [Text.splitBy_uncut uncut, piece]
    rfl
  | cons d rest =>
    by_cases opens : d = '['
    · subst opens
      rw [← List.singleton_append, ← List.append_assoc, Text.splitBy_append_cut uncut rfl, piece]
      rfl
    · have other : (d == '[') = false := beq_eq_false_iff_ne.mpr opens
      rw [← List.singleton_append, ← List.append_assoc, Text.splitBy_append uncut, Text.splitBy, other, if_neg Bool.false_ne_true,
        List.head?_cons, if_neg (by simpa using opens)]
      cases parts : Text.splitBy (· == '[') rest with
      | nil => exact absurd parts (Text.splitBy_ne_nil _ rest)
      | cons first others =>
        rw [List.modifyHead_cons, List.append_assoc, List.singleton_append, piece]
        rfl

theorem positions?_of_brackets (brackets : Brackets suffix ns) (ends : rest.head? ≠ some '[')
    (opened : '[' :: cs = suffix ++ rest) : positions? (Text.splitBy (· == '[') cs) = some ns := by
  induction brackets generalizing cs with
  | nil => exact absurd (congrArg List.head? opened).symm ends
  | @cons digits inner n ns read more ih =>
    obtain rfl : cs = digits ++ ']' :: (inner ++ rest) := by simpa using opened
    rw [positions?_closed read]
    cases more with
    | nil => exact if_neg ends
    | cons readToo more =>
      rw [List.cons_append, List.head?_cons, if_pos rfl, List.tail_cons, ih List.cons_append.symm]
      rfl

/-- A text that positions are read from begins with one of them. -/
theorem position?_of_positions? (read : positions? (Text.splitBy (· == '[') cs) = some ns) :
    ∃ digits more n, cs = digits ++ ']' :: more ∧ position? digits = some n := by
  cases parts : Text.splitBy (· == '[') cs with
  | nil => exact absurd parts (Text.splitBy_ne_nil _ cs)
  | cons piece pieces =>
    obtain ⟨after, rfl⟩ := Text.splitBy_head_starts parts
    rw [parts, positions?, Option.bind_eq_bind, Option.bind_eq_some_iff] at read
    obtain ⟨cut, split, read⟩ := read
    obtain ⟨rfl, -⟩ := Text.splitFirst?_eq_some_iff.mp split
    rw [Option.bind_eq_bind, Option.bind_eq_some_iff] at read
    obtain ⟨n, position, -⟩ := read
    exact ⟨cut.1, cut.2 ++ after, n, by simp, position⟩

theorem brackets_of_positions? (read : positions? (Text.splitBy (· == '[') cs) = some ns) :
    ∃ suffix rest, '[' :: cs = suffix ++ rest ∧ Brackets suffix ns ∧ ns ≠ [] ∧ rest.head? ≠ some '[' := by
  induction size : cs.length using Nat.strong_induction_on generalizing cs ns with
  | h length ih =>
    obtain ⟨digits, more, n, rfl, position⟩ := position?_of_positions? read
    rw [positions?_closed position] at read
    split at read
    · rename_i opens
      obtain ⟨ms, later, rfl⟩ := Option.map_eq_some_iff.mp read
      obtain ⟨next, rfl⟩ := List.head?_eq_some_iff.mp opens
      rw [List.tail_cons] at later
      have shorter : next.length < length := by
        rw [← size, List.length_append, List.length_cons, List.length_cons]
        omega
      obtain ⟨suffix, rest, split, brackets, -, ends⟩ := ih next.length shorter later rfl
      refine ⟨'[' :: (digits ++ ']' :: suffix), rest, ?_, .cons position brackets, List.cons_ne_nil _ _, ends⟩
      rw [split, List.cons_append, List.append_assoc, List.cons_append]
    · rename_i ends
      obtain rfl := Option.some.inj read
      exact ⟨'[' :: (digits ++ [']']), more, by simp, .cons position .nil, List.cons_ne_nil _ _, ends⟩

/-! ### Parts -/

/-- The segments of a name, where there is one, and of the positions after it. -/
def segmentsOf (name : List Char) (ns : List Nat) : List Segment :=
  (if name.isEmpty then [] else [.key (String.ofList name)]) ++ ns.map .index

/-- Where there are positions, there is more than a name. -/
theorem segmentsOf_ne_key (positions : ns ≠ []) (s : String) : segmentsOf name ns ≠ [.key s] := by
  intro same
  obtain ⟨n, member⟩ := List.exists_mem_of_ne_nil ns positions
  have inside : Segment.index n ∈ segmentsOf name ns := List.mem_append_right _ (List.mem_map_of_mem member)
  rw [same, List.mem_singleton] at inside
  cases inside

/-- A name without brackets and positions after it are the whole part. -/
def WellFormed (part : List Char) : Prop :=
  ∃ name suffix ns, part = name ++ suffix ∧ '[' ∉ name ∧ Brackets suffix ns

/-- A text comes after the last of the positions and does not begin with a bracket. -/
structure Trailing (part name : List Char) (ns : List Nat) (rest : List Char) : Prop where
  split : ∃ suffix, part = name ++ suffix ++ rest ∧ Brackets suffix ns
  plain : '[' ∉ name
  positions : ns ≠ []
  filled : rest ≠ []
  unopened : rest.head? ≠ some '['

theorem parsePart_opened (plain : '[' ∉ name) (cs : List Char) :
    parsePart (name ++ '[' :: cs) = match positions? (Text.splitBy (· == '[') cs) with
      | some ns => segmentsOf name ns
      | none => [.key (String.ofList (name ++ '[' :: cs))] := by
  rw [parsePart, Text.splitBy_append_cut (uncut_of_not_mem plain) rfl]
  rfl

/-- What follows the positions is read as if it were not there. -/
theorem parsePart_read (plain : '[' ∉ name) (brackets : Brackets suffix ns) (ends : rest.head? ≠ some '[')
    (whole : ns = [] → rest = []) : parsePart (name ++ suffix ++ rest) = segmentsOf name ns := by
  cases brackets with
  | nil =>
    rw [whole rfl, List.append_nil, List.append_nil, parsePart, Text.splitBy_uncut (uncut_of_not_mem plain)]
    rfl
  | @cons digits inner n ns read more =>
    have opened : '[' :: (digits ++ ']' :: inner ++ rest) = '[' :: (digits ++ ']' :: inner) ++ rest := rfl
    rw [List.append_assoc, List.cons_append, parsePart_opened plain,
      positions?_of_brackets (.cons read more) ends opened]

theorem Trailing.read (trailing : Trailing part name ns rest) : parsePart part = segmentsOf name ns := by
  obtain ⟨suffix, rfl, brackets⟩ := trailing.split
  exact parsePart_read trailing.plain brackets trailing.unopened fun none => absurd none trailing.positions

theorem parsePart_wellFormed (plain : '[' ∉ name) (brackets : Brackets suffix ns) :
    parsePart (name ++ suffix) = segmentsOf name ns := by
  have read := parsePart_read plain brackets (List.head?_nil.trans_ne (by decide)) fun _ => rfl
  rwa [List.append_nil] at read

theorem parsePart_unread (malformed : ¬ WellFormed part) (alone : ∀ name ns rest, ¬ Trailing part name ns rest) :
    parsePart part = [.key (String.ofList part)] := by
  by_cases opens : '[' ∈ part
  · obtain ⟨name, cs, rfl, plain⟩ := List.eq_append_cons_of_mem opens
    rw [parsePart_opened plain]
    cases read : positions? (Text.splitBy (· == '[') cs) with
    | none => rfl
    | some ns =>
      obtain ⟨suffix, rest, split, brackets, positions, unopened⟩ := brackets_of_positions? read
      rw [split] at malformed alone
      by_cases filled : rest = []
      · rw [filled, List.append_nil] at malformed
        exact absurd ⟨name, suffix, ns, rfl, plain, brackets⟩ malformed
      · have trailing : Trailing (name ++ (suffix ++ rest)) name ns rest :=
          ⟨⟨suffix, by rw [List.append_assoc], brackets⟩, plain, positions, filled, unopened⟩
        exact absurd trailing (alone name ns rest)
  · exact absurd ⟨part, [], [], by rw [List.append_nil], opens, .nil⟩ malformed

/-- A well-formed part with brackets is not kept as a name. -/
theorem not_wellFormed_of_kept (opens : '[' ∈ part) (kept : parsePart part = [.key (String.ofList part)]) :
    ¬ WellFormed part := by
  rintro ⟨name, suffix, ns, rfl, plain, brackets⟩
  rw [parsePart_wellFormed plain brackets] at kept
  cases brackets with
  | nil => exact plain (by simpa using opens)
  | cons => exact segmentsOf_ne_key (List.cons_ne_nil _ _) _ kept

/-- A part is not both whole and trailed by a text. -/
theorem Trailing.malformed (trailing : Trailing part name ns rest) : ¬ WellFormed part := by
  rintro ⟨other, longer, ms, split, plain, whole⟩
  obtain ⟨suffix, same, brackets⟩ := trailing.split
  have aligned : name ++ (suffix ++ rest) = other ++ longer := by rw [← List.append_assoc, ← same, split]
  have closed := whole
  cases brackets with
  | nil => exact trailing.positions rfl
  | cons read more =>
    cases whole with
    | nil =>
      rw [List.append_nil, List.cons_append] at aligned
      exact plain (aligned ▸ List.mem_append_right _ List.mem_cons_self)
    | cons readToo moreToo =>
      obtain ⟨-, later⟩ := Text.first_mark_unique trailing.plain plain aligned
      have joined : '[' :: _ ++ rest = _ := congrArg ('[' :: ·) later
      exact trailing.filled ((Brackets.cons read more).eq_nil_of_append trailing.unopened (joined ▸ closed))

/-! ### Texts -/

/-- The path of the parts between dots; empty ones do not count. -/
def ofParts (parts : List (List Char)) : FieldPath :=
  ⟨(parts.filter (! ·.isEmpty)).flatMap parsePart⟩

theorem parse_eq_ofParts (text : String) : parse text = ofParts (Text.splitBy (· == '.') text.toList) := rfl

theorem ofParts_cons (part : List Char) (parts : List (List Char)) :
    ofParts (part :: parts) = join ⟨parsePart part⟩ (ofParts parts) := by
  cases part with
  | nil => rfl
  | cons c rest => rfl

theorem ofParts_append (parts more : List (List Char)) :
    ofParts (parts ++ more) = join (ofParts parts) (ofParts more) := by
  rw [ofParts, List.filter_append, List.flatMap_append]
  rfl

/-- A part whose brackets cannot be read whole is kept as a name, in its place among the others, unless a text trails
    after positions that can: then the name and the positions are read, and the text after them is lost. -/
theorem malformed_kept_iff {text : String} {part : List Char} {earlier later : List (List Char)}
    (parts : Text.splitBy (· == '.') text.toList = earlier ++ part :: later) (malformed : ¬ WellFormed part) :
    (parse text = ((ofParts earlier).key (String.ofList part)).join (ofParts later) ↔
      ∀ name ns rest, ¬ Trailing part name ns rest) ∧
    ∀ name ns rest, Trailing part name ns rest →
      parse text = ((ofParts earlier).join ⟨segmentsOf name ns⟩).join (ofParts later) := by
  have whole : parse text = ((ofParts earlier).join ⟨parsePart part⟩).join (ofParts later) := by
    rw [parse_eq_ofParts, parts, ofParts_append, ofParts_cons, join, join, join, join, List.append_assoc]
  refine ⟨⟨fun kept name ns rest trailing => ?_, fun alone => ?_⟩, fun name ns rest trailing => ?_⟩
  · rw [whole, trailing.read] at kept
    have same := List.append_cancel_left (List.append_cancel_right (congrArg segments kept))
    exact segmentsOf_ne_key trailing.positions _ same
  · rw [whole, parsePart_unread malformed alone]
    rfl
  · rw [whole, trailing.read]

/-- Text that trails after a position is lost, though the part is not well formed. -/
theorem trailing_text_lost :
    ¬ WellFormed "Items[0]x".toList ∧ parse "Items[0]x.Value" = parse "Items[0].Value" ∧
      parse "Items[0]x.Value" ≠ ⟨[.key "Items[0]x", .key "Value"]⟩ := by
  have trailing : Trailing "Items[0]x".toList "Items".toList [0] "x".toList :=
    ⟨⟨'[' :: ("0".toList ++ [']']), by decide, .cons (by decide) .nil⟩, by decide, by decide, by decide, by decide⟩
  exact ⟨trailing.malformed, by decide, by decide⟩

/-- A position that is no number makes the part a name, a text after a position is lost. -/
theorem malformed_kept_word :
    ¬ WellFormed "Items[0][x]".toList ∧
      parse "Items[0][x].Value" = ((ofParts []).key "Items[0][x]").join (ofParts ["Value".toList]) ∧
    Trailing "Items[+7]x[1]".toList "Items".toList [7] "x[1]".toList ∧
      parse "Items[+7]x[1].Value" =
        ((ofParts []).join ⟨segmentsOf "Items".toList [7]⟩).join (ofParts ["Value".toList]) := by
  have kept : parsePart "Items[0][x]".toList = [.key "Items[0][x]"] := by decide
  have malformed := not_wellFormed_of_kept (by decide) kept
  have parts : Text.splitBy (· == '.') "Items[0][x].Value".toList =
      [] ++ "Items[0][x]".toList :: ["Value".toList] := by decide
  have trailing : Trailing "Items[+7]x[1]".toList "Items".toList [7] "x[1]".toList :=
    ⟨⟨'[' :: ("+7".toList ++ [']']), by decide, .cons (by decide) .nil⟩, by decide, by decide, by decide, by decide⟩
  have partsToo : Text.splitBy (· == '.') "Items[+7]x[1].Value".toList =
      [] ++ "Items[+7]x[1]".toList :: ["Value".toList] := by decide
  refine ⟨malformed, (malformed_kept_iff parts malformed).1.mpr fun name ns rest other => ?_, trailing,
    (malformed_kept_iff partsToo trailing.malformed).2 _ _ _ trailing⟩
  exact segmentsOf_ne_key other.positions _ (other.read.symm.trans kept)

/-! ### There and back -/

/-- A name that is read as one segment, or a position that can be read. -/
def Legible : Segment → Prop
  | .key name => name ≠ "" ∧ '.' ∉ name.toList ∧ '[' ∉ name.toList
  | .index position => position < twoPow 64

instance (s : Segment) : Decidable (Legible s) :=
  match s with
  | .key _ => inferInstanceAs (Decidable (_ ∧ _))
  | .index _ => inferInstanceAs (Decidable (_ < _))

/-- The text of segments after others. -/
def continuedText (segments : List Segment) : List Char :=
  segments.flatMap (·.continued.toList)

theorem toList_join_continued (segments : List Segment) :
    (String.join (segments.map Segment.continued)).toList = continuedText segments := by
  induction segments with
  | nil => rfl
  | cons segment rest ih =>
    rw [List.map_cons, String.join_cons, String.toList_append, ih]
    rfl

theorem brackets_index {n : Nat} (small : n < twoPow 64) : Brackets (Segment.index n).continued.toList [n] := by
  have text : (Segment.index n).continued.toList = '[' :: ((toString n).toList ++ [']']) := by simp [Segment.continued]
  rw [text]
  exact .cons (position?_toString small) .nil

theorem segmentsOf_key {name : String} (filled : name ≠ "") : segmentsOf name.toList [] = [.key name] := by
  have nonempty : name.toList.isEmpty = false := by simpa using filled
  rw [segmentsOf, nonempty, String.ofList_toList]
  rfl

/-- A part that is still open, and the segments after it: a position goes on with the part, a name begins another. -/
theorem ofParts_continued {segments : List Segment} (legible : ∀ s ∈ segments, Legible s) (plain : '[' ∉ name)
    (dotless : '.' ∉ name) (brackets : Brackets suffix ns) :
    ofParts (Text.splitBy (· == '.') (name ++ suffix ++ continuedText segments)) =
      ⟨segmentsOf name ns ++ segments⟩ := by
  induction segments generalizing name suffix ns with
  | nil =>
    have uncut := uncut_of_not_mem (List.not_mem_append dotless brackets.dotless)
    rw [continuedText, List.flatMap_nil, List.append_nil, Text.splitBy_uncut uncut, ofParts_cons,
      parsePart_wellFormed plain brackets]
    rfl
  | cons segment rest ih =>
    rw [List.forall_mem_cons] at legible
    cases segment with
    | index n =>
      have longer := ih legible.2 plain dotless (brackets.append (brackets_index legible.1))
      simpa [segmentsOf, continuedText] using longer
    | key next =>
      obtain ⟨filled, nextDotless, nextPlain⟩ := legible.1
      have uncut := uncut_of_not_mem (List.not_mem_append dotless brackets.dotless)
      have later := ih legible.2 nextPlain nextDotless Brackets.nil
      have text : continuedText (.key next :: rest) = '.' :: (next.toList ++ [] ++ continuedText rest) := by
        simp [continuedText, Segment.continued]
      rw [text, Text.splitBy_append_cut uncut rfl, ofParts_cons, parsePart_wellFormed plain brackets, later,
        segmentsOf_key filled]
      rfl

/-- A path of legible segments is read back from its text. -/
theorem parse_text (path : FieldPath) (legible : ∀ s ∈ path.segments, Legible s) : parse path.text = path := by
  obtain ⟨segments⟩ := path
  cases segments with
  | nil => rfl
  | cons first rest =>
    rw [List.forall_mem_cons] at legible
    rw [parse_eq_ofParts, text, String.toList_append, toList_join_continued]
    cases first with
    | key name =>
      obtain ⟨filled, dotless, plain⟩ := legible.1
      have read := ofParts_continued legible.2 plain dotless Brackets.nil
      rwa [List.append_nil, segmentsOf_key filled] at read
    | index n =>
      have read := ofParts_continued legible.2 List.not_mem_nil List.not_mem_nil (brackets_index legible.1)
      rwa [List.nil_append] at read

theorem parse_text_nested :
    (∀ s ∈ [Segment.index 0, .index 1, .key "+]", .index 18446744073709551615, .key "Value"], Legible s) ∧
      parse "[0][1].+][18446744073709551615].Value" =
        ⟨[.index 0, .index 1, .key "+]", .index 18446744073709551615, .key "Value"]⟩ := by
  have legible : ∀ s ∈ [Segment.index 0, .index 1, .key "+]", .index 18446744073709551615, .key "Value"], Legible s := by
    decide
  exact ⟨legible, parse_text ⟨_⟩ legible⟩

end StackCompiler.FieldPath
