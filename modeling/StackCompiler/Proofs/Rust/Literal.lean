import StackCompiler.Json.Writer
import StackCompiler.Text.Literal
import StackCompiler.Yaml.ScalarText

/-!
String literals of Rust source, as a compiler reads them. A text that is written as a literal
(`Text.literal`) is read back as it was. A text that is quoted as JSON is read back only while all
its characters stand for themselves or have an escape that both languages share: the other escapes
of JSON end in an error.
-/
namespace StackCompiler.Rust

open Yaml (hexDigit? charOfCode?)

/-! ### Reading -/

/-- Where a reader of a literal is. -/
inductive Reading where
  | plain
  /-- After a backslash. -/
  | escape
  /-- After a backslash at the end of a line: blanks are passed over. -/
  | lineEnd
  /-- In an escape of two digits, before or after the first. -/
  | byte (high : Option Nat)
  /-- Before the brace of an escape of up to six digits. -/
  | brace
  /-- After some of these digits. -/
  | scalar (digits value : Nat)
deriving DecidableEq

namespace Reading

/-- Escapes of one character. -/
def simpleEscapes : List (Char × Char) :=
  [('n', '\n'), ('r', '\r'), ('t', '\t'), ('0', '\x00'), ('\x5c', '\x5c'), ('\x22', '\x22'), ('\x27', '\x27')]

/-- A character that is no escape and no end. Lines end with a line feed alone. -/
def plainStep (c : Char) : Option (Reading × List Char) :=
  if c = '\x5c' then some (escape, []) else if c = '\r' then none else some (plain, [c])

/-- Where the next character leads, and what it adds to the value. -/
def step : Reading → Char → Option (Reading × List Char)
  | plain, c => plainStep c
  | lineEnd, c => if [' ', '\t', '\n', '\r'].contains c then some (lineEnd, []) else plainStep c
  | escape, c =>
    match simpleEscapes.lookup c with
    | some meant => some (plain, [meant])
    | none =>
      if c = 'x' then some (byte none, [])
      else if c = 'u' then some (brace, [])
      else if c = '\n' then some (lineEnd, [])
      else none
  | byte none, c =>
    match hexDigit? c with
    | some high => if high < 8 then some (byte (some high), []) else none
    | none => none
  | byte (some high), c => (hexDigit? c).map fun low => (plain, [Char.ofNat (16 * high + low)])
  | brace, c => if c = '\x7b' then some (scalar 0 0, []) else none
  | scalar digits value, c =>
    if c = '\x7d' then (if digits = 0 then none else (charOfCode? value).map fun meant => (plain, [meant]))
    else if c = '_' && digits != 0 then some (scalar digits value, [])
    else
      match hexDigit? c with
      | some digit => if digits < 6 then some (scalar (digits + 1) (16 * value + digit), []) else none
      | none => none

/-- Whether a character ends the literal. -/
def closes (state : Reading) (c : Char) : Bool :=
  (state = plain || state = lineEnd) && c == '\x22'

end Reading

/-- Reads a literal after its first quote: its value and what follows it. -/
def readBody : Reading → List Char → Option (List Char × List Char)
  | _, [] => none
  | state, c :: rest =>
    if state.closes c then some ([], rest)
    else
      match state.step c with
      | none => none
      | some (next, out) => (readBody next rest).map (Prod.map (out ++ ·) id)

/-- The value of a text that is one literal. -/
def literalValue? (text : String) : Option String :=
  match text.toList with
  | '\x22' :: rest =>
    match readBody .plain rest with
    | some (value, []) => some (String.ofList value)
    | _ => none
  | _ => none

theorem readBody_length {state : Reading} {cs value rest : List Char} (read : readBody state cs = some (value, rest)) :
    rest.length < cs.length := by
  induction cs generalizing state value with
  | nil => cases read
  | cons c cs ih =>
    rw [readBody] at read
    split at read
    · obtain ⟨rfl, rfl⟩ := Prod.mk.inj (Option.some.inj read)
      exact Nat.lt_succ_self _
    · split at read
      · cases read
      · obtain ⟨⟨inner, after⟩, later, both⟩ := Option.map_eq_some_iff.mp read
        obtain ⟨-, rfl⟩ := Prod.mk.inj both
        exact Nat.lt_succ_of_lt (ih later)

/-- The values of the literals in source text, unless one of them is in error. -/
def sourceLiterals : List Char → Option (List (List Char))
  | [] => some []
  | c :: rest =>
    if c = '\x22' then
      match _read : readBody .plain rest with
      | none => none
      | some (value, after) => (sourceLiterals after).map (value :: ·)
    else sourceLiterals rest
termination_by cs => cs.length
decreasing_by
  · exact Nat.lt_succ_of_lt (readBody_length _read)
  · exact Nat.lt_succ_self _

theorem sourceLiterals_of_read {rest value after : List Char} (read : readBody .plain rest = some (value, after)) :
    sourceLiterals ('\x22' :: rest) = (sourceLiterals after).map (value :: ·) := by
  rw [sourceLiterals, if_pos rfl]
  split <;> simp_all

theorem sourceLiterals_of_unread {rest : List Char} (unread : readBody .plain rest = none) :
    sourceLiterals ('\x22' :: rest) = none := by
  rw [sourceLiterals, if_pos rfl]
  split <;> simp_all

theorem sourceLiterals_code {c : Char} (code : c ≠ '\x22') (rest : List Char) :
    sourceLiterals (c :: rest) = sourceLiterals rest := by
  rw [sourceLiterals, if_neg code]

/-! ### Pieces -/

/-- What is read as the character `c`, whatever follows. -/
def StandsFor (piece : List Char) (c : Char) : Prop :=
  ∀ rest, readBody .plain (piece ++ rest) = (readBody .plain rest).map (Prod.map (c :: ·) id)

/-- What is in error, whatever follows. -/
def IsIllegal (piece : List Char) : Prop :=
  ∀ rest, readBody .plain (piece ++ rest) = none

theorem readBody_cons {state next : Reading} {c : Char} {out : List Char} (opened : state.closes c = false)
    (stepped : state.step c = some (next, out)) (rest : List Char) :
    readBody state (c :: rest) = (readBody next rest).map (Prod.map (out ++ ·) id) := by
  rw [readBody, opened, stepped]
  rfl

/-- A step that adds nothing. -/
theorem readBody_cons_silent {state next : Reading} {c : Char} (opened : state.closes c = false)
    (stepped : state.step c = some (next, [])) (rest : List Char) : readBody state (c :: rest) = readBody next rest := by
  rw [readBody_cons opened stepped]
  exact Option.map_id'

theorem readBody_backslash (rest : List Char) : readBody .plain ('\x5c' :: rest) = readBody .escape rest :=
  readBody_cons_silent rfl rfl rest

theorem readBody_u (rest : List Char) : readBody .escape ('u' :: rest) = readBody .brace rest :=
  readBody_cons_silent rfl rfl rest

theorem readBody_brace (rest : List Char) : readBody .brace ('\x7b' :: rest) = readBody (.scalar 0 0) rest :=
  readBody_cons_silent rfl rfl rest

theorem standsFor_self {c : Char} (quote : c ≠ '\x22') (backslash : c ≠ '\x5c') (ret : c ≠ '\r') : StandsFor [c] c := by
  have opened : Reading.plain.closes c = false := by simp [Reading.closes, quote]
  have stepped : Reading.plain.step c = some (.plain, [c]) := by simp [Reading.step, Reading.plainStep, backslash, ret]
  exact fun rest => readBody_cons opened stepped rest

theorem standsFor_simple {letter meant : Char} (listed : Reading.simpleEscapes.lookup letter = some meant) :
    StandsFor ['\x5c', letter] meant := by
  intro rest
  have stepped : Reading.escape.step letter = some (.plain, [meant]) := by simp only [Reading.step, listed]
  rw [List.cons_append, readBody_backslash]
  exact readBody_cons rfl stepped rest

/-- An escape that no literal has. -/
theorem isIllegal_escape {letter : Char} (illegal : Reading.escape.step letter = none) (piece : List Char) :
    IsIllegal ('\x5c' :: letter :: piece) := by
  intro rest
  rw [List.cons_append, readBody_backslash, List.cons_append, readBody, illegal]
  rfl

/-- The braces of an escape of six digits cannot be left out. -/
theorem isIllegal_unbraced {c : Char} (unbraced : c ≠ '\x7b') (piece : List Char) :
    IsIllegal ('\x5c' :: 'u' :: c :: piece) := by
  intro rest
  have stuck : Reading.brace.step c = none := by simp [Reading.step, unbraced]
  rw [List.cons_append, readBody_backslash, List.cons_append, readBody_u, List.cons_append, readBody, stuck]
  rfl

/-! ### Digits -/

theorem readBody_digit {digit : Nat} (small : digit < 16) {digits : Nat} (room : digits < 6) (value : Nat) (rest : List Char) :
    readBody (.scalar digits value) (digit.digitChar :: rest) =
      readBody (.scalar (digits + 1) (16 * value + digit)) rest := by
  have all : ∀ d : Fin 16, hexDigit? (Nat.digitChar d) = some d.1 ∧ Nat.digitChar d ≠ '\x7d' ∧ Nat.digitChar d ≠ '_' := by
    decide
  obtain ⟨named, brace, gap⟩ := all ⟨digit, small⟩
  refine readBody_cons_silent rfl ?_ rest
  simp only [Reading.step, brace, named, if_false]
  simp [gap, room]

theorem readBody_digits (n : Nat) (rest : List Char) (room : (Nat.toDigits 16 n).length ≤ 6) :
    readBody (.scalar 0 0) (Nat.toDigits 16 n ++ rest) = readBody (.scalar (Nat.toDigits 16 n).length n) rest := by
  induction n using Nat.strongRecOn generalizing rest with
  | ind n ih =>
    by_cases small : n < 16
    · rw [Nat.toDigits_of_lt_base small, List.singleton_append, readBody_digit small (by decide), Nat.mul_zero, Nat.zero_add,
        Nat.zero_add]
      rfl
    · have base : 16 ≤ n := Nat.le_of_not_lt small
      have last : n % 16 < 16 := Nat.mod_lt n (by decide)
      rw [Nat.toDigits_of_base_le (by decide) base] at room ⊢
      rw [List.length_append, List.length_singleton] at room ⊢
      rw [List.append_assoc, ih (n / 16) (by omega) _ (by omega), List.singleton_append, readBody_digit last (by omega),
        Nat.div_add_mod]

theorem charOfCode?_toNat (c : Char) : charOfCode? c.toNat = some c := by
  have valid : c.toNat < 0xd800 ∨ 0xdfff < c.toNat ∧ c.toNat < 0x110000 := c.valid
  have inside : ((0xd800 ≤ c.toNat && c.toNat ≤ 0xdfff) || 0x10ffff < c.toNat) = false := by
    simp
    omega
  rw [charOfCode?, inside]
  simp

/-- An escape of six digits stands for the character of that code. -/
theorem standsFor_scalar (c : Char) : StandsFor ('\x5c' :: 'u' :: '\x7b' :: (Nat.toDigits 16 c.toNat ++ ['\x7d'])) c := by
  intro rest
  have valid : c.toNat < 0xd800 ∨ 0xdfff < c.toNat ∧ c.toNat < 0x110000 := c.valid
  have short : (Nat.toDigits 16 c.toNat).length ≤ 6 := (Nat.length_toDigits_le_iff (by decide) (by decide)).mpr (by omega)
  have positive : (Nat.toDigits 16 c.toNat).length ≠ 0 := by simp
  have closed (digits : Nat) (some : digits ≠ 0) : (Reading.scalar digits c.toNat).step '\x7d' = .some (.plain, [c]) := by
    simp [Reading.step, some, charOfCode?_toNat]
  rw [List.cons_append, readBody_backslash, List.cons_append, readBody_u, List.cons_append, readBody_brace,
    List.append_assoc, readBody_digits _ _ short, List.singleton_append, readBody_cons rfl (closed _ positive)]
  rfl

theorem exists_digit_of_mem_toDigits {n : Nat} {c : Char} (member : c ∈ Nat.toDigits 16 n) :
    ∃ digit : Fin 16, c = Nat.digitChar digit := by
  induction n using Nat.strongRecOn with
  | ind n ih =>
    by_cases small : n < 16
    · rw [Nat.toDigits_of_lt_base small, List.mem_singleton] at member
      exact ⟨⟨n, small⟩, member⟩
    · rw [Nat.toDigits_of_base_le (by decide) (Nat.le_of_not_lt small), List.mem_append, List.mem_singleton] at member
      rcases member with before | last
      · exact ih (n / 16) (by omega) before
      · exact ⟨⟨n % 16, Nat.mod_lt n (by decide)⟩, last⟩

/-! ### Writers -/

/-- A text without line breaks. -/
def Unbroken (cs : List Char) : Prop := '\n' ∉ cs ∧ '\r' ∉ cs

instance (cs : List Char) : Decidable (Unbroken cs) := inferInstanceAs (Decidable (_ ∧ _))

theorem unbroken_iff {cs : List Char} : Unbroken cs ↔ ∀ c ∈ cs, c ≠ '\n' ∧ c ≠ '\r' := by
  constructor
  · rintro ⟨feed, ret⟩ c member
    exact ⟨fun same => feed (same ▸ member), fun same => ret (same ▸ member)⟩
  · intro each
    exact ⟨fun member => (each _ member).1 rfl, fun member => (each _ member).2 rfl⟩

theorem unbroken_append {cs ds : List Char} : Unbroken (cs ++ ds) ↔ Unbroken cs ∧ Unbroken ds := by
  simp only [unbroken_iff, List.forall_mem_append]

theorem unbroken_digits (n : Nat) : Unbroken (Nat.toDigits 16 n) := by
  have all : ∀ digit : Fin 16, Nat.digitChar digit ≠ '\n' ∧ Nat.digitChar digit ≠ '\r' := by decide
  refine unbroken_iff.mpr fun c member => ?_
  obtain ⟨digit, rfl⟩ := exists_digit_of_mem_toDigits member
  exact all digit

/-- The characters that both writers escape alike. -/
def sharedEscapes : List Char := ['\x22', '\x5c', '\n', '\r', '\t']

theorem not_mem_sharedEscapes {c : Char} :
    c ∉ sharedEscapes ↔ c ≠ '\x22' ∧ c ≠ '\x5c' ∧ c ≠ '\n' ∧ c ≠ '\r' ∧ c ≠ '\t' := by
  simp [sharedEscapes]

theorem exists_simple_escape {c : Char} (member : c ∈ '\x00' :: sharedEscapes) : ∃ letter,
    Reading.simpleEscapes.lookup letter = some c ∧ (Text.literalChar c).toList = ['\x5c', letter] ∧ Unbroken [letter] := by
  have all : ('\x00' :: sharedEscapes).all (fun c => Reading.simpleEscapes.any fun e =>
      Reading.simpleEscapes.lookup e.1 == some c && (Text.literalChar c).toList == ['\x5c', e.1] &&
        decide (Unbroken [e.1])) = true := by decide
  obtain ⟨e, -, found⟩ := List.any_eq_true.mp (List.all_eq_true.mp all c member)
  simp only [Bool.and_eq_true, beq_iff_eq, decide_eq_true_eq] at found
  exact ⟨e.1, found.1.1, found.1.2, found.2⟩

theorem escaped_shared {c : Char} (member : c ∈ sharedEscapes) : (Json.escaped c).toList = (Text.literalChar c).toList := by
  have same : sharedEscapes.map (fun c => (Json.escaped c).toList) = sharedEscapes.map fun c => (Text.literalChar c).toList := by
    decide
  exact List.map_inj_left.mp same c member

theorem literalChar_of_not_mem {c : Char} (other : c ∉ '\x00' :: sharedEscapes) : (Text.literalChar c).toList =
    if Text.isSolid c then [c] else '\x5c' :: 'u' :: '\x7b' :: (Nat.toDigits 16 c.toNat ++ ['\x7d']) := by
  rw [List.mem_cons, not_or, not_mem_sharedEscapes] at other
  simp only [Text.literalChar, other, if_false]
  split <;> simp

/-- Every character of a literal is read back. -/
theorem literalChar_standsFor (c : Char) : StandsFor (Text.literalChar c).toList c := by
  by_cases simple : c ∈ '\x00' :: sharedEscapes
  · obtain ⟨letter, listed, written, -⟩ := exists_simple_escape simple
    rw [written]
    exact standsFor_simple listed
  · rw [literalChar_of_not_mem simple]
    rw [List.mem_cons, not_or, not_mem_sharedEscapes] at simple
    obtain ⟨-, quote, backslash, -, ret, -⟩ := simple
    split
    · exact standsFor_self quote backslash ret
    · exact standsFor_scalar c

theorem literalChar_unbroken (c : Char) : Unbroken (Text.literalChar c).toList := by
  by_cases simple : c ∈ '\x00' :: sharedEscapes
  · obtain ⟨letter, -, written, unbroken⟩ := exists_simple_escape simple
    rw [written]
    exact unbroken_append.mpr ⟨(by decide : Unbroken ['\x5c']), unbroken⟩
  · rw [literalChar_of_not_mem simple]
    rw [List.mem_cons, not_or, not_mem_sharedEscapes] at simple
    obtain ⟨-, -, -, feed, ret, -⟩ := simple
    split
    · exact unbroken_iff.mpr (List.forall_mem_singleton.mpr ⟨feed, ret⟩)
    · have start : Unbroken ['\x5c', 'u', '\x7b'] := by decide
      exact unbroken_append.mpr ⟨start, unbroken_append.mpr ⟨unbroken_digits _, by decide⟩⟩

/-- The escapes of JSON that no literal has. -/
theorem escaped_of_hidden {c : Char} (hidden : c < ' ') (other : c ∉ sharedEscapes) :
    (Json.escaped c).toList = ['\x5c', 'b'] ∨ (Json.escaped c).toList = ['\x5c', 'f'] ∨ ∃ digits, Unbroken digits ∧
      (Json.escaped c).toList = '\x5c' :: 'u' :: '0' :: '0' :: digits := by
  obtain ⟨quote, backslash, feed, ret, tab⟩ := not_mem_sharedEscapes.mp other
  by_cases back : c = '\x08'
  · exact .inl (back ▸ rfl)
  by_cases form : c = '\x0c'
  · exact .inr (.inl (form ▸ rfl))
  refine .inr (.inr ⟨List.replicate (2 - (Nat.toDigits 16 c.toNat).length) '0' ++ Nat.toDigits 16 c.toNat, ?_, ?_⟩)
  · refine unbroken_append.mpr ⟨unbroken_iff.mpr fun d member => ?_, unbroken_digits _⟩
    rw [List.eq_of_mem_replicate member]
    decide
  · simp [Json.escaped, quote, backslash, back, form, feed, ret, tab, hidden, Decimal.zeros]

theorem escaped_of_visible {c : Char} (visible : ¬ c < ' ') (other : c ∉ sharedEscapes) : (Json.escaped c).toList = [c] := by
  rw [not_mem_sharedEscapes] at other
  have back : c ≠ '\x08' := fun same => visible (same ▸ by decide)
  have form : c ≠ '\x0c' := fun same => visible (same ▸ by decide)
  simp [Json.escaped, other, back, form, visible]

/-- A character that a document holds as a literal may hold it. -/
def isShared (c : Char) : Bool := ! (c < ' ') || c == '\t' || c == '\n' || c == '\r'

theorem isShared_of_mem {c : Char} (member : c ∈ sharedEscapes) : isShared c = true := by
  have all : sharedEscapes.all isShared = true := by decide
  exact List.all_eq_true.mp all c member

theorem escaped_standsFor {c : Char} (shared : isShared c = true) : StandsFor (Json.escaped c).toList c := by
  by_cases simple : c ∈ sharedEscapes
  · rw [escaped_shared simple]
    exact literalChar_standsFor c
  · obtain ⟨quote, backslash, feed, ret, tab⟩ := not_mem_sharedEscapes.mp simple
    have visible : ¬ c < ' ' := by simpa [isShared, feed, ret, tab] using shared
    rw [escaped_of_visible visible simple]
    exact standsFor_self quote backslash ret

theorem escaped_isIllegal {c : Char} (own : isShared c = false) : IsIllegal (Json.escaped c).toList := by
  have other : c ∉ sharedEscapes := fun member => by simp [isShared_of_mem member] at own
  obtain ⟨-, -, feed, ret, tab⟩ := not_mem_sharedEscapes.mp other
  have hidden : c < ' ' := by simpa [isShared, feed, ret, tab] using own
  rcases escaped_of_hidden hidden other with written | written | ⟨digits, -, written⟩ <;> rw [written]
  · exact isIllegal_escape rfl []
  · exact isIllegal_escape rfl []
  · exact isIllegal_unbraced (by decide) _

theorem escaped_unbroken (c : Char) : Unbroken (Json.escaped c).toList := by
  by_cases simple : c ∈ sharedEscapes
  · rw [escaped_shared simple]
    exact literalChar_unbroken c
  · by_cases hidden : c < ' '
    · rcases escaped_of_hidden hidden simple with written | written | ⟨digits, unbroken, written⟩ <;> rw [written]
      · decide
      · decide
      · have start : Unbroken ['\x5c', 'u', '0', '0'] := by decide
        exact unbroken_append.mpr ⟨start, unbroken⟩
    · obtain ⟨-, -, feed, ret, -⟩ := not_mem_sharedEscapes.mp simple
      rw [escaped_of_visible hidden simple]
      exact unbroken_iff.mpr (List.forall_mem_singleton.mpr ⟨feed, ret⟩)

/-! ### Quotes -/

/-- A text between quotes, as source has it or as a document has it. -/
inductive Quote where
  | source (s : String)
  | document (s : String)
deriving DecidableEq

namespace Quote

def value : Quote → String
  | source s => s
  | document s => s

def text : Quote → String
  | source s => Text.literal s
  | document s => Json.quoted s

/-- Whether a quote is a literal of source: one of a document may only hold characters that both write alike. -/
def isSound : Quote → Bool
  | source _ => true
  | document s => s.toList.all isShared

/-- What is written for a character. -/
def write : Quote → Char → List Char
  | source _ => fun c => (Text.literalChar c).toList
  | document _ => fun c => (Json.escaped c).toList

theorem text_toList (q : Quote) : q.text.toList = '\x22' :: (q.value.toList.flatMap q.write ++ ['\x22']) := by
  cases q with
  | source s => simp [text, Text.literal, value, write, List.flatMap_map]
  | document s => simp [text, Json.quoted, value, write, List.flatMap_map]

theorem text_unbroken (q : Quote) : Unbroken q.text.toList := by
  have body : Unbroken (q.value.toList.flatMap q.write) := by
    refine unbroken_iff.mpr (List.forall_mem_flatMap.mpr fun c _ => unbroken_iff.mp ?_)
    cases q with
    | source _ => exact literalChar_unbroken c
    | document _ => exact escaped_unbroken c
  rw [text_toList]
  exact unbroken_append.mpr ⟨(by decide : Unbroken ['\x22']), unbroken_append.mpr ⟨body, by decide⟩⟩

theorem write_standsFor {q : Quote} (sound : q.isSound = true) : ∀ c ∈ q.value.toList, StandsFor (q.write c) c := by
  cases q with
  | source s => exact fun c _ => literalChar_standsFor c
  | document s => exact fun c member => escaped_standsFor (List.all_eq_true.mp sound c member)

/-- A sound quote is read up to its end. -/
theorem readBody_sound {q : Quote} (sound : q.isSound = true) (rest : List Char) :
    readBody .plain (q.value.toList.flatMap q.write ++ '\x22' :: rest) = some (q.value.toList, rest) := by
  have each := write_standsFor sound
  generalize q.value.toList = cs at each ⊢
  induction cs with
  | nil => rfl
  | cons c cs ih =>
    rw [List.forall_mem_cons] at each
    rw [List.flatMap_cons, List.append_assoc, each.1, ih each.2]
    rfl

/-- Any other is in error, at the first character that is not written alike. -/
theorem readBody_unsound {q : Quote} (unsound : q.isSound = false) (rest : List Char) :
    readBody .plain (q.value.toList.flatMap q.write ++ '\x22' :: rest) = none := by
  cases q with
  | source s => cases unsound
  | document s =>
    change s.toList.all isShared = false at unsound
    change readBody .plain (s.toList.flatMap (fun c => (Json.escaped c).toList) ++ '\x22' :: rest) = none
    generalize s.toList = cs at unsound ⊢
    induction cs with
    | nil => cases unsound
    | cons c cs ih =>
      rw [List.flatMap_cons, List.append_assoc]
      cases shared : isShared c with
      | false => exact escaped_isIllegal shared _
      | true =>
        rw [List.all_cons, shared, Bool.true_and] at unsound
        rw [escaped_standsFor shared, ih unsound]
        rfl

theorem literalValue?_text (q : Quote) : literalValue? q.text = if q.isSound then some q.value else none := by
  rw [literalValue?, text_toList]
  cases sound : q.isSound with
  | true => simp [readBody_sound sound []]
  | false => simp [readBody_unsound sound []]

theorem sourceLiterals_quote (q : Quote) (rest : List Char) :
    sourceLiterals (q.text.toList ++ rest) =
      if q.isSound then (sourceLiterals rest).map (q.value.toList :: ·) else none := by
  rw [text_toList, List.cons_append, List.append_assoc, List.singleton_append]
  cases sound : q.isSound with
  | true => exact sourceLiterals_of_read (readBody_sound sound rest)
  | false => exact sourceLiterals_of_unread (readBody_unsound sound rest)

end Quote

end StackCompiler.Rust
