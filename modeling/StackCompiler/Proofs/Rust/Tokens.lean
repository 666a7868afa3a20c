import StackCompiler.Proofs.Rust.Literal

/-!
The tokens of Rust source. A text is read character by character (`Pending.step`), and what is read of
a token that may go on is kept until it is known where the token ends. Literals are tokens with
their quotes, and comments and white space are left out. Where a reader is in code (`InCode`), white
space ends the token that is pending and changes nothing else.
-/
namespace StackCompiler.Rust

/-! ### Characters -/

inductive CharClass where
  | blank
  /-- Letters, digits, and whatever is not of ASCII. -/
  | word
  | opening
  | closing
  | quote
  | tick
  | mark
deriving DecidableEq

/-- White space between tokens. -/
def whiteSpace : List Char :=
  ['\t', '\n', '\x0b', '\x0c', '\r', ' ', '\u0085', '\u200e', '\u200f', '\u2028', '\u2029']

def charClass (c : Char) : CharClass :=
  if whiteSpace.contains c then .blank
  else if c.isAlphanum || c == '_' || 127 < c.toNat then .word
  else if ['(', '[', '\x7b'].contains c then .opening
  else if [')', ']', '\x7d'].contains c then .closing
  else if c = '\x22' then .quote
  else if c = '\x27' then .tick
  else .mark

/-! ### Tokens -/

inductive Token where
  /-- An identifier, a lifetime or a literal as it is written. -/
  | word (text : List Char)
  /-- A character of an operator, and whether another follows right after it. -/
  | mark (c : Char) (joint : Bool)
  | opening (c : Char)
  | closing (c : Char)
deriving DecidableEq

/-- What is read of a token that may go on. The text of a word is kept last character first. -/
inductive Pending where
  | code
  | word (read : List Char)
  /-- An integer and a point, which is part of a number only before a digit or at its end. -/
  | point (read : List Char)
  | mark (c : Char)
  /-- What raw literals and raw identifiers begin with. -/
  | hashes (read : List Char) (count : Nat)
  | string (read : List Char) (escaped : Bool)
  /-- In a raw literal, perhaps with a quote and some number signs after it. -/
  | raw (read : List Char) (count : Nat) (closing : Option Nat)
  /-- After an apostrophe, and after one more character. -/
  | tick (read : List Char)
  | ticked (read : List Char)
  /-- In a character literal that begins with an escape. -/
  | char (read : List Char) (escaped : Bool)
  | line
  /-- In comments inside each other, after the character `last`. -/
  | block (depth : Nat) (last : Char)
  | failed
deriving DecidableEq

namespace Pending

/-- Before which a quote or a number sign begins a raw literal. -/
def isRaw (read : List Char) : Bool :=
  [['r'], ['r', 'b'], ['r', 'c']].contains read

/-- A number up to a point. -/
def isInteger (read : List Char) : Bool :=
  read.all (fun c => c.isDigit || c == '_') && read.getLast?.any Char.isDigit

/-- A number up to the sign of its exponent. -/
def isMantissa : List Char → Bool
  | [] => false
  | letter :: read =>
    (letter == 'e' || letter == 'E') && read.all (fun c => c.isDigit || c == '_' || c == '.') && read.getLast?.any Char.isDigit

/-- What a character begins where nothing is pending. -/
def fresh (c : Char) : List Token × Pending :=
  match charClass c with
  | .blank => ([], code)
  | .word => ([], word [c])
  | .opening => ([.opening c], code)
  | .closing => ([.closing c], code)
  | .quote => ([], string [c] false)
  | .tick => ([], tick [c])
  | .mark => ([], mark c)

/-- What a character begins after tokens that it ends. -/
def after (tokens : List Token) (c : Char) : List Token × Pending :=
  (tokens ++ (fresh c).1, (fresh c).2)

def wordStep (read : List Char) (c : Char) : List Token × Pending :=
  match charClass c with
  | .word => ([], word (c :: read))
  | .quote => ([], if isRaw read then raw (c :: read) 0 none else string (c :: read) false)
  | .tick => ([], tick (c :: read))
  | .mark =>
    if c = '#' && isRaw read then ([], hashes (c :: read) 1)
    else if c = '.' && isInteger read then ([], point read)
    else if (c = '+' || c = '-') && isMantissa read then ([], word (c :: read))
    else after [.word read.reverse] c
  | _ => after [.word read.reverse] c

def pointStep (read : List Char) (c : Char) : List Token × Pending :=
  if c.isDigit then ([], word (c :: '.' :: read))
  else if c = '.' then ([.word read.reverse, .mark '.' true], mark '.')
  else if charClass c = .word then ([.word read.reverse, .mark '.' false], word [c])
  else after [.word ('.' :: read).reverse] c

def markStep (before c : Char) : List Token × Pending :=
  if before = '/' && c = '/' then ([], line)
  else if before = '/' && c = '*' then ([], block 1 ' ')
  else after [.mark before (charClass c == .mark)] c

def rawStep (read : List Char) (count : Nat) (closing : Option Nat) (c : Char) : Pending :=
  if c = '\x22' then (if count = 0 then word (c :: read) else raw (c :: read) count (some 0))
  else
    match closing with
    | some seen =>
      if c = '#' then (if seen + 1 = count then word (c :: read) else raw (c :: read) count (some (seen + 1)))
      else raw (c :: read) count none
    | none => raw (c :: read) count none

/-- The tokens that the next character ends, and what is pending then. -/
def step : Pending → Char → List Token × Pending
  | code, c => fresh c
  | word read, c => wordStep read c
  | point read, c => pointStep read c
  | mark before, c => markStep before c
  | hashes read count, c =>
    if c = '#' then ([], hashes (c :: read) (count + 1))
    else if c = '\x22' then ([], raw (c :: read) count none)
    else if charClass c = .word && count = 1 then ([], word (c :: read))
    else ([], failed)
  | string read escaped, c =>
    if escaped then ([], string (c :: read) false)
    else if c = '\x22' then ([], word (c :: read))
    else ([], string (c :: read) (c == '\x5c'))
  | raw read count closing, c => ([], rawStep read count closing c)
  | tick read, c => ([], if c = '\x5c' then char (c :: read) true else ticked (c :: read))
  | ticked read, c =>
    if c = '\x27' then ([], word (c :: read))
    else if read.head?.any (charClass · == .word) then wordStep read c
    else ([], failed)
  | char read escaped, c =>
    if escaped then ([], char (c :: read) false)
    else if c = '\x27' then ([], word (c :: read))
    else ([], char (c :: read) (c == '\x5c'))
  | line, c => ([], if c = '\n' then code else line)
  | block depth last, c =>
    if last = '*' && c = '/' then ([], if depth = 1 then code else block (depth - 1) ' ')
    else if last = '/' && c = '*' then ([], block (depth + 1) ' ')
    else ([], block depth c)
  | failed, _ => ([], failed)

/-- The tokens of a text, and what is pending after it. -/
def run (pending : Pending) : List Char → List Token × Pending
  | [] => ([], pending)
  | c :: rest =>
    let (tokens, next) := pending.step c
    let (others, last) := run next rest
    (tokens ++ others, last)

/-- The token that is pending, where a text may end. -/
def tokens : Pending → List Token
  | word read => [.word read.reverse]
  | point read => [.word ('.' :: read).reverse]
  | mark c => [.mark c false]
  | ticked read => [.word read.reverse]
  | _ => []

/-- Whether a text may end: not inside of literals and comments, but for comments up to the end of a line. -/
def isComplete : Pending → Bool
  | code => true
  | word _ => true
  | point _ => true
  | mark _ => true
  | line => true
  | ticked read => read.head?.any (charClass · == .word)
  | _ => false

end Pending

/-- The tokens of a source text, unless it ends inside of one. -/
def tokens? (source : String) : Option (List Token) :=
  let (tokens, pending) := Pending.code.run source.toList
  if pending.isComplete then some (tokens ++ pending.tokens) else none

example : tokens? "Some(1.5e-3.into(), \"//\") // b" = some [.word "Some".toList, .opening '(', .word "1.5e-3".toList, .mark '.' false,
    .word "into".toList, .opening '(', .closing ')', .mark ',' false, .word "\"//\"".toList, .closing ')'] := by decide

namespace Pending

variable {p q : Pending}

theorem run_cons (p : Pending) (c : Char) (rest : List Char) :
    p.run (c :: rest) = ((p.step c).1 ++ ((p.step c).2.run rest).1, ((p.step c).2.run rest).2) := rfl

theorem run_append (p : Pending) (cs ds : List Char) :
    p.run (cs ++ ds) = ((p.run cs).1 ++ ((p.run cs).2.run ds).1, ((p.run cs).2.run ds).2) := by
  induction cs generalizing p with
  | nil => simp [run]
  | cons c cs ih =>
    rw [List.cons_append, run_cons, ih, run_cons]
    simp

/-! ### Where a reader is -/

/-- No literal and no comment is open. -/
def InCode : Pending → Prop
  | code => True
  | word _ => True
  | point _ => True
  | mark _ => True
  | _ => False

instance : DecidablePred InCode
  | code | word _ | point _ | mark _ => isTrue trivial
  | hashes _ _ | string _ _ | raw _ _ _ | tick _ | ticked _ | char _ _ | line | block _ _ | failed => isFalse id

/-- An operand may end here. -/
def Ended : Pending → Prop
  | code => True
  | word _ => True
  | _ => False

/-- An operand may begin here, with no word before it that it could be part of. -/
def Open : Pending → Prop
  | code => True
  | mark _ => True
  | _ => False

theorem Ended.inCode (ended : Ended p) : InCode p := by
  cases p with
  | code | word _ => trivial
  | _ => exact ended.elim

theorem Open.inCode (isOpen : Open p) : InCode p := by
  cases p with
  | code | mark _ => trivial
  | _ => exact isOpen.elim

theorem InCode.isComplete (inCode : InCode p) : p.isComplete = true := by
  cases p with
  | code | word _ | point _ | mark _ => rfl
  | _ => exact inCode.elim

theorem charClass_of_isAlphanum {c : Char} (letter : c.isAlphanum = true) : charClass c = .word := by
  have visible : whiteSpace.contains c = false := by
    rw [← Bool.not_eq_true, List.contains_iff_mem]
    intro blank
    have none : (whiteSpace.all fun c => ! c.isAlphanum) = true := by decide
    have other := List.all_eq_true.mp none c blank
    rw [letter] at other
    cases other
  rw [charClass, visible, letter]
  rfl

theorem charClass_of_isDigit {c : Char} (digit : c.isDigit = true) : charClass c = .word :=
  charClass_of_isAlphanum (Bool.or_eq_true_iff.mpr (.inr digit))

/-- A character that divides tokens ends the one that is pending. -/
theorem step_divider {c : Char} (inCode : InCode p)
    (divides : charClass c = .blank ∨ charClass c = .opening ∨ charClass c = .closing) : p.step c = after p.tokens c := by
  have other : charClass c ≠ .word ∧ charClass c ≠ .mark := by
    rcases divides with same | same | same <;> rw [same] <;> decide
  have noDigit : c.isDigit = false := by
    rw [← Bool.not_eq_true]
    exact fun digit => other.1 (charClass_of_isDigit digit)
  have noMark (d : Char) (isMark : charClass d = .mark) : c ≠ d := by
    rintro rfl
    exact other.2 isMark
  have point : c ≠ '.' := noMark '.' (by decide)
  have slash : c ≠ '/' := noMark '/' (by decide)
  have star : c ≠ '*' := noMark '*' (by decide)
  cases p with
  | code => simp [step, tokens, after]
  | word read => rcases divides with same | same | same <;> simp [step, wordStep, tokens, same]
  | point read => simp [step, pointStep, tokens, noDigit, point, other.1]
  | mark before =>
    have alone : (charClass c == .mark) = false := by simpa using other.2
    simp [step, markStep, tokens, slash, star, alone]
  | _ => exact inCode.elim

theorem step_blank {c : Char} (inCode : InCode p) (blank : charClass c = .blank) : p.step c = (p.tokens, code) := by
  rw [step_divider inCode (.inl blank), after, fresh, blank]
  simp

theorem step_opening {c : Char} (inCode : InCode p) (opens : charClass c = .opening) :
    p.step c = (p.tokens ++ [.opening c], code) := by
  rw [step_divider inCode (.inr (.inl opens)), after, fresh, opens]

theorem step_closing {c : Char} (inCode : InCode p) (closes : charClass c = .closing) :
    p.step c = (p.tokens ++ [.closing c], code) := by
  rw [step_divider inCode (.inr (.inr closes)), after, fresh, closes]

/-- A letter or a digit is part of a word. -/
theorem step_word {c : Char} (inCode : InCode p) (letter : charClass c = .word) : ∃ tokens read, p.step c = (tokens, word read) := by
  cases p with
  | code => exact ⟨[], [c], by rw [step, fresh, letter]⟩
  | word read => exact ⟨[], c :: read, by rw [step, wordStep, letter]⟩
  | point read =>
    rw [step, pointStep]
    split
    · exact ⟨_, _, rfl⟩
    · split
      case isTrue same =>
        subst same
        exact absurd letter (by decide)
      case isFalse => exact ⟨_, _, rfl⟩
  | mark before =>
    have slash : c ≠ '/' := by
      rintro rfl
      exact absurd letter (by decide)
    have star : c ≠ '*' := by
      rintro rfl
      exact absurd letter (by decide)
    exact ⟨[.mark before false], [c], by simp +decide [step, markStep, slash, star, after, fresh, letter]⟩
  | _ => exact inCode.elim

/-- A mark that begins neither a comment nor a raw literal leaves a reader in code. -/
theorem step_mark {c : Char} (inCode : InCode p) (isMark : charClass c = .mark) (plain : c ∉ ['/', '*', '#']) :
    InCode (p.step c).2 := by
  have begun : (fresh c).2 = mark c := by rw [fresh, isMark]
  simp only [List.mem_cons, List.not_mem_nil, or_false, not_or] at plain
  obtain ⟨slash, star, number⟩ := plain
  cases p with
  | code =>
    rw [step, begun]
    trivial
  | word read =>
    simp only [step, wordStep, isMark, number, decide_false, Bool.false_and, Bool.false_eq_true, if_false]
    split
    · trivial
    · split
      · trivial
      · rw [after, begun]
        trivial
  | point read =>
    rw [step, pointStep]
    split
    · trivial
    · split
      · trivial
      · split
        · trivial
        · rw [after, begun]
          trivial
  | mark before =>
    simp only [step, markStep, slash, star, decide_false, Bool.and_false, Bool.false_eq_true, if_false, after, begun]
    trivial
  | _ => exact inCode.elim

/-- A comma or a colon after an operand. -/
theorem step_separator {c : Char} (ended : Ended p) (separates : c = ',' ∨ c = ':') : p.step c = (p.tokens, mark c) := by
  have isMark : charClass c = .mark := by rcases separates with rfl | rfl <;> decide
  have other : c ≠ '#' ∧ c ≠ '.' ∧ c ≠ '+' ∧ c ≠ '-' := by rcases separates with rfl | rfl <;> decide
  cases p with
  | code => simp [step, fresh, isMark, tokens]
  | word read => simp [step, wordStep, isMark, other, after, fresh, tokens]
  | _ => exact ended.elim

theorem step_quote (isOpen : Open p) : p.step '\x22' = (p.tokens, string ['\x22'] false) := by
  cases p with
  | code => rfl
  | mark before => simp +decide [step, markStep, after, fresh, tokens]
  | _ => exact isOpen.elim

/-! ### Line feeds -/

/-- No carriage return is read, and a line feed only in code. -/
def Safe (p : Pending) : List Char → Prop
  | [] => True
  | c :: rest => c ≠ '\r' ∧ (c = '\n' → InCode p) ∧ Safe (p.step c).2 rest

theorem safe_append (p : Pending) (cs ds : List Char) : Safe p (cs ++ ds) ↔ Safe p cs ∧ Safe (p.run cs).2 ds := by
  induction cs generalizing p with
  | nil => simp [Safe, run]
  | cons c cs ih =>
    rw [List.cons_append, Safe, Safe, ih, run_cons]
    simp only [and_assoc]

theorem safe_of_unbroken {cs : List Char} (unbroken : Unbroken cs) (p : Pending) : Safe p cs := by
  rw [unbroken_iff] at unbroken
  induction cs generalizing p with
  | nil => trivial
  | cons c cs ih =>
    obtain ⟨⟨feed, ret⟩, unbroken⟩ := List.forall_mem_cons.mp unbroken
    exact ⟨ret, fun same => absurd same feed, ih unbroken _⟩

theorem Safe.return_not_mem {cs : List Char} (safe : Safe p cs) : '\r' ∉ cs := by
  induction cs generalizing p with
  | nil => exact List.not_mem_nil
  | cons c cs ih =>
    obtain ⟨ret, -, later⟩ := safe
    rw [List.mem_cons, not_or]
    exact ⟨ret.symm, ih later⟩

end Pending

/-- From wherever `P` holds, a text leads to where `Q` holds, and its line feeds stand in code. -/
def Leads (P : Pending → Prop) (s : String) (Q : Pending → Prop) : Prop :=
  ∀ p, P p → p.Safe s.toList ∧ Q (p.run s.toList).2

/-- Nothing is pending. -/
def IsCode (p : Pending) : Prop := p = .code

theorem isCode_ended {p : Pending} (isCode : IsCode p) : p.Ended := by
  rw [isCode]
  trivial

theorem isCode_open {p : Pending} (isCode : IsCode p) : p.Open := by
  rw [isCode]
  trivial

namespace Leads

open Pending (InCode Ended Open Safe)

variable {P Q R : Pending → Prop} {s t : String}

theorem append (first : Leads P s Q) (second : Leads Q t R) : Leads P (s ++ t) R := by
  intro p holds
  obtain ⟨safe, mid⟩ := first p holds
  obtain ⟨later, last⟩ := second _ mid
  rw [String.toList_append, Pending.safe_append, Pending.run_append]
  exact ⟨⟨safe, later⟩, last⟩

theorem mono {P' Q' : Pending → Prop} (leads : Leads P s Q) (before : ∀ p, P' p → P p) (after : ∀ p, Q p → Q' p) :
    Leads P' s Q' :=
  fun p holds => (leads p (before p holds)).imp_right (after _)

theorem fresh (leads : Leads InCode s Q) : Leads IsCode s Q :=
  leads.mono (fun _ isCode => (isCode_open isCode).inCode) fun _ => id

theorem atOperand (leads : Leads InCode s Q) : Leads Open s Q :=
  leads.mono (fun _ => Open.inCode) fun _ => id

theorem afterOperand (leads : Leads InCode s Q) : Leads Ended s Q :=
  leads.mono (fun _ => Ended.inCode) fun _ => id

theorem operand (leads : Leads Open s Q) : Leads IsCode s Q :=
  leads.mono (fun _ => isCode_open) fun _ => id

theorem ends (leads : Leads P s IsCode) : Leads P s Ended :=
  leads.mono (fun _ => id) fun _ => isCode_ended

/-- A character that begins neither a literal, nor a comment, nor a line of its own. -/
def isTame (c : Char) : Bool :=
  c != '\r' &&
    match charClass c with
    | .quote => false
    | .tick => false
    | .mark => ! ['/', '*', '#'].contains c
    | _ => true

/-- Whether a character divides tokens. -/
def divides (c : Char) : Bool :=
  charClass c == .blank || charClass c == .opening || charClass c == .closing

theorem step_tame {p : Pending} {c : Char} (inCode : InCode p) (tame : isTame c = true) : InCode (p.step c).2 := by
  cases same : charClass c with
  | blank =>
    rw [Pending.step_blank inCode same]
    trivial
  | word =>
    obtain ⟨_, _, stepped⟩ := Pending.step_word inCode same
    rw [stepped]
    trivial
  | opening =>
    rw [Pending.step_opening inCode same]
    trivial
  | closing =>
    rw [Pending.step_closing inCode same]
    trivial
  | mark =>
    refine Pending.step_mark inCode same ?_
    simpa [isTame, same] using (Bool.and_eq_true_iff.mp tame).2
  | quote | tick =>
    rw [isTame, same, Bool.and_false] at tame
    cases tame

theorem run_tame {p : Pending} {cs : List Char} (inCode : InCode p) (tame : cs.all isTame = true) :
    p.Safe cs ∧ InCode (p.run cs).2 := by
  induction cs generalizing p with
  | nil => exact ⟨trivial, inCode⟩
  | cons c cs ih =>
    obtain ⟨first, tame⟩ := Bool.and_eq_true_iff.mp tame
    obtain ⟨safe, last⟩ := ih (step_tame inCode first) tame
    have ret : c ≠ '\r' := by simpa using (Bool.and_eq_true_iff.mp first).1
    exact ⟨⟨ret, fun _ => inCode, safe⟩, last⟩

theorem tame (chars : s.toList.all isTame = true) : Leads InCode s InCode :=
  fun _ inCode => run_tame inCode chars

/-- The last character of such a text decides where it leads. -/
theorem ending {c : Char} (chars : s.toList.all isTame = true) (last : s.toList.getLast? = some c)
    (leads : ∀ p, InCode p → Q (p.step c).2) : Leads InCode s Q := by
  intro p inCode
  refine ⟨(run_tame inCode chars).1, ?_⟩
  obtain ⟨init, written⟩ := List.getLast?_eq_some_iff.mp last
  rw [written, List.all_append, Bool.and_eq_true] at chars
  rw [written, Pending.run_append, Pending.run_cons]
  exact leads _ (run_tame inCode chars.1).2

/-- Where it ends with what divides tokens, nothing is pending. -/
theorem closed (chars : s.toList.all isTame = true) (last : s.toList.getLast?.any divides = true) : Leads InCode s IsCode := by
  cases found : s.toList.getLast? with
  | none =>
    rw [found] at last
    cases last
  | some c =>
    refine ending chars found fun p inCode => ?_
    have ends : charClass c = .blank ∨ charClass c = .opening ∨ charClass c = .closing := by
      simpa [found, divides, or_assoc] using last
    rw [Pending.step_divider inCode ends, IsCode]
    rcases ends with same | same | same <;> simp [Pending.after, Pending.fresh, same]

/-- Where it ends with a letter or a digit, a word is pending. -/
theorem worded {c : Char} (chars : s.toList.all isTame = true) (last : s.toList.getLast? = some c)
    (letter : charClass c = .word) : Leads InCode s Ended := by
  refine ending chars last fun p inCode => ?_
  obtain ⟨tokens, read, stepped⟩ := Pending.step_word inCode letter
  rw [stepped]
  trivial

end Leads

end StackCompiler.Rust
