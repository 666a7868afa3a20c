import StackCompiler.Proofs.Equality
import StackCompiler.Proofs.Text.Search
import StackCompiler.Template.Document

/-!
The places of names, lines and columns in a source, at which error reports point. They never lie
outside the source. A name is pointed at where one of the forms in which it may stand as a key is
found (`Located`), and what is pointed at is the name, unless it begins with a quote and is found
before a colon: there the quote is taken for one that is put around the name (`keySpan?_covers_iff`).
-/
namespace StackCompiler

open Text (IsBeforeFirst byteCount)

/-- `text` is what stands at a span of `source`. -/
def Span.Covers (span : Span) (source text : String) : Prop :=
  ∃ before after, source.toList = before ++ text.toList ++ after ∧ byteCount before = span.offset ∧
    text.utf8ByteSize = span.length

namespace Span.Covers

variable {span : Span} {source text other : String}

theorem inside (covers : span.Covers source text) : span.offset + span.length ≤ source.utf8ByteSize := by
  obtain ⟨before, after, split, offset, length⟩ := covers
  rw [← offset, ← length, ← Text.byteCount_toList, ← Text.byteCount_toList, split, Text.byteCount_append,
    Text.byteCount_append]
  exact Nat.le_add_right _ _

theorem unique (covers : span.Covers source text) (coversToo : span.Covers source other) : text = other := by
  obtain ⟨before, after, split, offset, length⟩ := covers
  obtain ⟨start, rest, splitToo, offsetToo, lengthToo⟩ := coversToo
  rw [split, List.append_assoc, List.append_assoc] at splitToo
  have texts := (Text.append_inj_of_byteCount splitToo (offset.trans offsetToo.symm)).2
  have bytes : byteCount text.toList = byteCount other.toList := by
    rw [Text.byteCount_toList, Text.byteCount_toList, length, lengthToo]
  exact String.toList_inj.mp (Text.append_inj_of_byteCount texts bytes).1

end Span.Covers

namespace SourceText

/-! ### Names -/

/-- `text` stands somewhere in `source`. -/
def Holds (source text : String) : Prop := text.toList <:+: source.toList

instance (source text : String) : Decidable (Holds source text) := inferInstanceAs (Decidable (_ <:+: _))

def BeginsWithQuote (name : String) : Prop := name.toList.head?.any isQuote = true

instance (name : String) : Decidable (BeginsWithQuote name) := inferInstanceAs (Decidable (_ = _))

/-- What is reported of a name: the first place at which it stands between double quotes, or else before a
    colon, or else between single quotes. A quote at the start of the form is skipped, and before a
    colon the form starts as the name does. -/
inductive Located (source name : String) : Option Span → Prop
  | quoted {before : List Char} (first : IsBeforeFirst ("\"" ++ name ++ "\"").toList source.toList before) :
      Located source name (some ⟨byteCount before + 1, name.utf8ByteSize⟩)
  | key {before : List Char} (unquoted : ¬ Holds source ("\"" ++ name ++ "\""))
      (first : IsBeforeFirst (name ++ ":").toList source.toList before) :
      Located source name (some ⟨byteCount before + (if BeginsWithQuote name then 1 else 0), name.utf8ByteSize⟩)
  | apostrophes {before : List Char} (unquoted : ¬ Holds source ("\"" ++ name ++ "\"")) (noKey : ¬ Holds source (name ++ ":"))
      (first : IsBeforeFirst ("'" ++ name ++ "'").toList source.toList before) :
      Located source name (some ⟨byteCount before + 1, name.utf8ByteSize⟩)
  | nowhere (unquoted : ¬ Holds source ("\"" ++ name ++ "\"")) (noKey : ¬ Holds source (name ++ ":"))
      (noApostrophes : ¬ Holds source ("'" ++ name ++ "'")) : Located source name none

theorem keyForms_eq (name : String) :
    keyForms name = [("\"" ++ name ++ "\"").toList, (name ++ ":").toList, ("'" ++ name ++ "'").toList] := by
  simp [keyForms]

theorem keySpan?_located (source name : String) : Located source name (keySpan? source name) := by
  have afterMark (mark : String) (isMark : mark.toList.head?.any isQuote = true) :
      (mark ++ name ++ mark).toList.head?.any isQuote = true := by
    cases written : mark.toList with
    | nil => rw [written] at isMark; cases isMark
    | cons c rest => simpa [written] using isMark
  have beforeColon : ((name ++ ":").toList.head?.any isQuote = true) = BeginsWithQuote name := by
    unfold BeginsWithQuote
    cases written : name.toList with
    | nil => simp [written, isQuote]
    | cons c rest => simp [written]
  unfold keySpan?
  rw [keyForms_eq]
  simp only [List.findSome?_cons, List.findSome?_nil, beforeColon, afterMark "\"" (by decide), afterMark "'" (by decide),
    if_true]
  cases quoted : Text.findFirst? ("\"" ++ name ++ "\"").toList source.toList with
  | some position => exact .quoted (Text.isBeforeFirst_of_findFirst? quoted)
  | none =>
    rw [Text.findFirst?_eq_none_iff] at quoted
    cases key : Text.findFirst? (name ++ ":").toList source.toList with
    | some position => exact .key quoted (Text.isBeforeFirst_of_findFirst? key)
    | none =>
      rw [Text.findFirst?_eq_none_iff] at key
      cases apostrophes : Text.findFirst? ("'" ++ name ++ "'").toList source.toList with
      | some position => exact .apostrophes quoted key (Text.isBeforeFirst_of_findFirst? apostrophes)
      | none => exact .nowhere quoted key (Text.findFirst?_eq_none_iff.mp apostrophes)

variable {source name : String} {before : List Char}

theorem keySpan?_eq_none_iff :
    keySpan? source name = none ↔
      ¬ Holds source ("\"" ++ name ++ "\"") ∧ ¬ Holds source (name ++ ":") ∧ ¬ Holds source ("'" ++ name ++ "'") := by
  have located := keySpan?_located source name
  generalize keySpan? source name = reported at located
  cases located with
  | quoted first => exact iff_of_false (by simp) fun absent => absent.1 first.stands
  | key _ first => exact iff_of_false (by simp) fun absent => absent.2.1 first.stands
  | apostrophes _ _ first => exact iff_of_false (by simp) fun absent => absent.2.2 first.stands
  | nowhere unquoted noKey noApostrophes => exact iff_of_true rfl ⟨unquoted, noKey, noApostrophes⟩

/-- What stands in a form after `lead` is what a span covers that leaves out `lead`. -/
theorem covers_after {form lead rest : List Char} {text : String} (first : IsBeforeFirst form source.toList before)
    (written : form = lead ++ text.toList ++ rest) :
    Span.Covers ⟨byteCount before + byteCount lead, text.utf8ByteSize⟩ source text := by
  obtain ⟨⟨after, split⟩, -⟩ := first
  refine ⟨before ++ lead, rest ++ after, ?_, Text.byteCount_append before lead, rfl⟩
  rw [split, written]
  simp only [List.append_assoc]

/-- Before a colon, a quote at the start of the name is left out and the colon is taken in. -/
theorem covers_colon (begins : BeginsWithQuote name) (first : IsBeforeFirst (name ++ ":").toList source.toList before) :
    ∃ other, other ≠ name ∧ Span.Covers ⟨byteCount before + 1, name.utf8ByteSize⟩ source other := by
  obtain ⟨quote, rest, rfl, isMark⟩ : ∃ quote rest, name = String.ofList (quote :: rest) ∧ isQuote quote = true := by
    unfold BeginsWithQuote at begins
    cases written : name.toList with
    | nil => rw [written] at begins; cases begins
    | cons quote rest =>
      rw [written] at begins
      exact ⟨quote, rest, by rw [← written, String.ofList_toList], begins⟩
  have either : quote = '\x22' ∨ quote = '\x27' := by simpa [isQuote] using isMark
  have oneByte : quote.utf8Size = 1 := by rcases either with rfl | rfl <;> rfl
  have noColon : quote ≠ ':' := by rcases either with rfl | rfl <;> decide
  have form : (String.ofList (quote :: rest) ++ ":").toList = [quote] ++ (String.ofList (rest ++ [':'])).toList ++ [] := by
    simp
  have covers := covers_after first form
  refine ⟨String.ofList (rest ++ [':']), fun same => ?_, ?_⟩
  · -- The other text has one colon more.
    have colons := congrArg (fun s => s.toList.count ':') same
    simp [noColon] at colons
  · have bytes : (String.ofList (rest ++ [':'])).utf8ByteSize = (String.ofList (quote :: rest)).utf8ByteSize := by
      rw [← Text.byteCount_toList, ← Text.byteCount_toList, String.toList_ofList, String.toList_ofList,
        Text.byteCount_append]
      show byteCount rest + 1 = quote.utf8Size + byteCount rest
      rw [oneByte, Nat.add_comm]
    have lead : byteCount [quote] = 1 := oneByte
    rwa [bytes, lead] at covers

/-- The span of a name covers it, except where the name begins with a quote and is found before a colon. -/
theorem covers_iff {span : Span} (found : keySpan? source name = some span) :
    span.offset + span.length ≤ source.utf8ByteSize ∧
      (span.Covers source name ↔
        ¬ (BeginsWithQuote name ∧ ¬ Holds source ("\"" ++ name ++ "\"") ∧ Holds source (name ++ ":"))) := by
  have located := keySpan?_located source name
  rw [found] at located
  cases located with
  | quoted first =>
    have covers := covers_after first (String.toList_append.trans (congrArg (· ++ ['\x22']) String.toList_append))
    exact ⟨covers.inside, iff_of_true covers fun misread => misread.2.1 first.stands⟩
  | key unquoted first =>
    by_cases begins : BeginsWithQuote name
    · rw [if_pos begins]
      obtain ⟨other, differs, covers⟩ := covers_colon begins first
      exact ⟨covers.inside, iff_of_false (fun own => differs (covers.unique own))
        (not_not_intro ⟨begins, unquoted, first.stands⟩)⟩
    · rw [if_neg begins]
      have form : (name ++ ":").toList = [] ++ name.toList ++ [':'] := String.toList_append
      have covers := covers_after first form
      exact ⟨covers.inside, iff_of_true covers fun misread => begins misread.1⟩
  | apostrophes _ noKey first =>
    have covers := covers_after first (String.toList_append.trans (congrArg (· ++ ['\x27']) String.toList_append))
    exact ⟨covers.inside, iff_of_true covers fun misread => noKey misread.2.2⟩

/-! ### Lines and columns -/

theorem offsetOf_le (source : String) (line column : Nat) : offsetOf source line column ≤ source.utf8ByteSize :=
  Nat.min_le_right _ _

/-- A place in the source is found by the lines before it and the bytes before it in its own line. -/
theorem offsetOf_place {here after : List Char} (fits : source.utf8ByteSize < twoPow 64)
    (split : source.toList = before ++ here ++ after) (whole : Text.WholeLines before) :
    offsetOf source (before.count '\n' + 1) (byteCount here + 1) = byteCount before + byteCount here := by
  have inside : byteCount before + byteCount here ≤ source.utf8ByteSize := by
    rw [← Text.byteCount_toList, split, Text.byteCount_append, Text.byteCount_append]
    exact Nat.le_add_right _ _
  have found : byteCount ((Text.linesKept source.toList).take (before.count '\n')).flatten = byteCount before := by
    obtain ⟨lines, feeds⟩ := Text.linesKept_whole whole (here ++ after)
    rw [split, List.append_assoc, lines, ← feeds, List.take_left, Text.flatten_linesKept]
  simp only [offsetOf, Nat.add_sub_cancel, found, Nat.mod_eq_of_lt (Nat.lt_of_le_of_lt inside fits)]
  exact Nat.min_eq_left inside

/-- A name is found exactly if it stands in the source between double quotes, before a colon or between
    single quotes. Its span is inside the source and covers it, unless it begins with a quote and was
    found before a colon. The byte of a line and a column is inside the source too, and is the byte
    that is meant where the line and the column are those of a place in the source and all its bytes
    can be counted. -/
theorem keySpan?_covers_iff (source name : String) :
    (keySpan? source name = none ↔
      ¬ Holds source ("\"" ++ name ++ "\"") ∧ ¬ Holds source (name ++ ":") ∧ ¬ Holds source ("'" ++ name ++ "'")) ∧
    (∀ span, keySpan? source name = some span →
      span.offset + span.length ≤ source.utf8ByteSize ∧
        (span.Covers source name ↔
          ¬ (BeginsWithQuote name ∧ ¬ Holds source ("\"" ++ name ++ "\"") ∧ Holds source (name ++ ":")))) ∧
    (∀ line column, offsetOf source line column ≤ source.utf8ByteSize) ∧
    (source.utf8ByteSize < twoPow 64 →
      ∀ before here after, source.toList = before ++ here ++ after → Text.WholeLines before →
        offsetOf source (before.count '\n' + 1) (byteCount here + 1) = byteCount before + byteCount here) :=
  ⟨keySpan?_eq_none_iff, fun _ found => covers_iff found, offsetOf_le source, fun fits _ _ _ => offsetOf_place fits⟩

/-- A name that begins with a quote, between apostrophes. It stands at the second column of its line. -/
theorem keySpan?_covers_apostrophes :
    keySpan? "'\"a': 1" "\"a" = some ⟨1, 2⟩ ∧ Span.Covers ⟨1, 2⟩ "'\"a': 1" "\"a" ∧ offsetOf "'\"a': 1" 1 2 = 1 := by
  have found : keySpan? "'\"a': 1" "\"a" = some ⟨1, 2⟩ := by decide +kernel
  obtain ⟨-, spans, -, places⟩ := keySpan?_covers_iff "'\"a': 1" "\"a"
  refine ⟨found, (spans _ found).2.mpr fun misread => ?covers, ?place⟩
  case covers => exact absurd misread.2.2 (by decide +kernel)
  case place => exact places (by decide +kernel) [] "'".toList "\"a': 1".toList (by decide) (by simp [Text.WholeLines])

/-- A resource whose name is a quote. -/
def quoteText : String := "\x7b\"Resources\":\x7b\"\\\"\":\x7b\"Type\":\"AWS::SQS::Queue\"\x7d\x7d\x7d"

/-- A quote is found at the end of another name, before a colon, and the colon is what is pointed at. -/
theorem quote_misread :
    Template.parse quoteText = .error (.invalidName "\"" "Resources" .punctuation) ∧
      keySpan? quoteText "\"" = some ⟨12, 1⟩ ∧ Span.Covers ⟨12, 1⟩ quoteText ":" ∧
      ¬ Span.Covers ⟨12, 1⟩ quoteText "\"" := by
  have colon : Span.Covers ⟨12, 1⟩ quoteText ":" :=
    ⟨quoteText.toList.take 12, quoteText.toList.drop 13, by decide +kernel, by decide +kernel, by decide +kernel⟩
  exact ⟨by decide +kernel, by decide +kernel, colon, fun quote => absurd (colon.unique quote) (by decide)⟩

end SourceText

end StackCompiler
