import StackCompiler.Number.Numeral
import StackCompiler.Proofs.Number.Shortest
import StackCompiler.Proofs.Numeral
import StackCompiler.Yaml.Tree

/-!
What the text of a number tells. A numeral can be read off its text in either notation
(`positional_written`, `scientific_written`), and the shortest numeral tells the number. So numbers
that are written alike are the same key (`Yaml.sameKeyNumber_of_text`).
-/
namespace StackCompiler

namespace Decimal

/-! ### Reading numerals -/

/-- The exponent that stands after the digits of a numeral, if there is one. -/
def exponentOf : List Char → Int
  | 'e' :: '-' :: digits => -(digitsValue digits : Int)
  | 'e' :: digits => digitsValue digits
  | _ => 0

/-- The numeral that a text names. -/
def ofText (cs : List Char) : Decimal :=
  let whole := cs.takeWhile Char.isDigit
  match cs.dropWhile Char.isDigit with
  | '.' :: more =>
    let fraction := more.takeWhile Char.isDigit
    ⟨digitsValue (whole ++ fraction), exponentOf (more.dropWhile Char.isDigit) - fraction.length⟩
  | rest => ⟨digitsValue whole, exponentOf rest⟩

/-- Whether a text names a numeral, beginning with a digit and not of digits alone. -/
structure Written (d : Decimal) (cs : List Char) : Prop where
  value : (ofText cs).value = d.value
  first : ∃ c ∈ cs.head?, c.isDigit = true
  mark : ∃ c ∈ cs, c.isDigit = false

section Written

variable {whole fraction rest : List Char} {d : Decimal}

theorem span_digits (digits : ∀ c ∈ whole, c.isDigit = true) (ends : ∀ c ∈ rest.head?, c.isDigit = false) :
    (whole ++ rest).takeWhile Char.isDigit = whole ∧ (whole ++ rest).dropWhile Char.isDigit = rest := by
  rw [List.takeWhile_append_of_pos digits, List.dropWhile_append_of_pos digits]
  cases rest with
  | nil => exact ⟨List.append_nil _, rfl⟩
  | cons c more =>
    have other : ¬ c.isDigit = true := by simpa using ends c rfl
    rw [List.takeWhile_cons_of_neg other, List.dropWhile_cons_of_neg other]
    exact ⟨List.append_nil _, rfl⟩

theorem first_of_digits (some : whole ≠ []) (digits : ∀ c ∈ whole, c.isDigit = true) (rest : List Char) :
    ∃ c ∈ (whole ++ rest).head?, c.isDigit = true := by
  cases whole with
  | nil => exact absurd rfl some
  | cons c more => exact ⟨c, rfl, digits c List.mem_cons_self⟩

theorem Written.pointed (some : whole ≠ []) (digits : ∀ c ∈ whole, c.isDigit = true)
    (digitsToo : ∀ c ∈ fraction, c.isDigit = true) (ends : ∀ c ∈ rest.head?, c.isDigit = false)
    (value : Decimal.value ⟨digitsValue (whole ++ fraction), exponentOf rest - fraction.length⟩ = d.value) :
    d.Written (whole ++ '.' :: (fraction ++ rest)) where
  value := by
    have point : ∀ c ∈ ('.' :: (fraction ++ rest)).head?, c.isDigit = false := by
      intro c head
      obtain rfl := Option.some.inj head
      rfl
    obtain ⟨start, after⟩ := span_digits digits point
    obtain ⟨inner, last⟩ := span_digits digitsToo ends
    rw [← value, ofText, after, start]
    change Decimal.value ⟨digitsValue (whole ++ (fraction ++ rest).takeWhile Char.isDigit),
      exponentOf ((fraction ++ rest).dropWhile Char.isDigit) - ((fraction ++ rest).takeWhile Char.isDigit).length⟩ = _
    rw [inner, last]
  first := first_of_digits some digits _
  mark := ⟨'.', List.mem_append_right _ List.mem_cons_self, rfl⟩

theorem Written.unended (some : whole ≠ []) (digits : ∀ c ∈ whole, c.isDigit = true)
    (digitsToo : ∀ c ∈ fraction, c.isDigit = true)
    (value : Decimal.value ⟨digitsValue (whole ++ fraction), -fraction.length⟩ = d.value) :
    d.Written (whole ++ '.' :: fraction) := by
  have nothing : ∀ c ∈ ([] : List Char).head?, c.isDigit = false := fun _ none => absurd none (Option.not_mem_none _)
  have written := Written.pointed (d := d) some digits digitsToo nothing
  rw [List.append_nil, show exponentOf [] = 0 from rfl, Int.zero_sub] at written
  exact written value

theorem Written.unpointed (some : whole ≠ []) (digits : ∀ c ∈ whole, c.isDigit = true) (ending : List Char)
    (value : Decimal.value ⟨digitsValue whole, exponentOf ('e' :: ending)⟩ = d.value) :
    d.Written (whole ++ 'e' :: ending) where
  value := by
    have mark : ∀ c ∈ ('e' :: ending).head?, c.isDigit = false := by
      intro c head
      obtain rfl := Option.some.inj head
      rfl
    obtain ⟨start, after⟩ := span_digits digits mark
    rw [← value, ofText, after, start]
    rfl
  first := first_of_digits some digits _
  mark := ⟨'e', List.mem_append_right _ List.mem_cons_self, rfl⟩

end Written

/-! ### Values of digits -/

theorem digitsValue_toDigits (n : Nat) : digitsValue (Nat.toDigits 10 n) = n := Nat.ofDigitChars_ten_toDigits

theorem digitsValue_zeros_append (k : Nat) (digits : List Char) :
    digitsValue (List.replicate k '0' ++ digits) = digitsValue digits := by
  change Nat.ofDigitChars 10 _ 0 = Nat.ofDigitChars 10 _ 0
  rw [Nat.ofDigitChars_append, Nat.ofDigitChars_replicate_zero, Nat.mul_zero]

theorem digitsValue_append_zeros (digits : List Char) (k : Nat) :
    digitsValue (digits ++ List.replicate k '0') = tenPow k * digitsValue digits := by
  change Nat.ofDigitChars 10 _ 0 = tenPow k * Nat.ofDigitChars 10 _ 0
  rw [Nat.ofDigitChars_append, Nat.ofDigitChars_replicate_zero]
  rfl

theorem isDigit_of_mem_zeros {k : Nat} : ∀ c ∈ List.replicate k '0', c.isDigit = true := by
  intro c member
  rw [List.eq_of_mem_replicate member]
  rfl

/-! ### Reading back -/

/-- A point among the digits or before them. -/
theorem positional_negative_written (n e : Nat) : Written ⟨n, .negSucc e⟩ (positional ⟨n, .negSucc e⟩ true).toList := by
  have numeral : ∀ c ∈ Nat.toDigits 10 n, c.isDigit = true := isDigit_of_mem_toDigits
  have zero : List.replicate 1 '0' ≠ [] := List.cons_ne_nil _ _
  unfold positional
  dsimp only
  split
  · rename_i point
    have places : ((Nat.toDigits 10 n).length : Int) + Int.negSucc e = 0 := point
    rw [show ("0." ++ String.ofList (Nat.toDigits 10 n)).toList =
      List.replicate 1 '0' ++ '.' :: Nat.toDigits 10 n by simp]
    refine .unended zero isDigit_of_mem_zeros numeral ?_
    rw [digitsValue_zeros_append, digitsValue_toDigits]
    congr 2
    omega
  · rename_i p before point
    have places : ((Nat.toDigits 10 n).length : Int) + Int.negSucc e = (p : Int) := point
    have positive : p ≠ 0 := before
    rw [show (String.ofList ((Nat.toDigits 10 n).take p) ++ "." ++ String.ofList ((Nat.toDigits 10 n).drop p)).toList =
      (Nat.toDigits 10 n).take p ++ '.' :: (Nat.toDigits 10 n).drop p by simp]
    refine .unended ?_ (fun c member => numeral c (List.take_subset _ _ member))
      (fun c member => numeral c (List.drop_subset _ _ member)) ?_
    · rw [Ne, List.take_eq_nil_iff, not_or]
      exact ⟨positive, Nat.toDigits_ne_nil⟩
    · rw [List.take_append_drop, digitsValue_toDigits, List.length_drop]
      congr 2
      omega
  · rename_i z point
    rw [show ("0." ++ zeros (z + 1) ++ String.ofList (Nat.toDigits 10 n)).toList =
      List.replicate 1 '0' ++ '.' :: (List.replicate (z + 1) '0' ++ Nat.toDigits 10 n) by simp [zeros]]
    refine .unended zero isDigit_of_mem_zeros (List.forall_mem_append.mpr ⟨isDigit_of_mem_zeros, numeral⟩) ?_
    rw [digitsValue_zeros_append, digitsValue_zeros_append, digitsValue_toDigits, List.length_append,
      List.length_replicate]
    congr 2
    omega

theorem positional_written (d : Decimal) : d.Written (d.positional true).toList := by
  obtain ⟨n, exponent⟩ := d
  cases exponent with
  | negSucc e => exact positional_negative_written n e
  | ofNat k =>
    -- the zeros of a whole number stand for its exponent, and one more stands after the point
    have shape : (positional ⟨n, .ofNat k⟩ true).toList =
        (Nat.toDigits 10 n ++ List.replicate k '0') ++ '.' :: List.replicate 1 '0' := by
      simp [positional, zeros]
    rw [shape]
    refine .unended (List.append_ne_nil_of_left_ne_nil Nat.toDigits_ne_nil _)
      (List.forall_mem_append.mpr ⟨isDigit_of_mem_toDigits, isDigit_of_mem_zeros⟩) isDigit_of_mem_zeros ?_
    rw [digitsValue_append_zeros, digitsValue_append_zeros, digitsValue_toDigits, List.length_replicate, value, value,
      Nat.cast_mul, Nat.cast_mul, cast_tenPow, cast_tenPow, zpow_neg, Int.ofNat_eq_natCast]
    field_simp

theorem exponentOf_digits {digits : List Char} (each : ∀ c ∈ digits, c.isDigit = true) :
    exponentOf ('e' :: digits) = digitsValue digits := by
  rw [exponentOf]
  rintro more rfl
  exact absurd (each '-' List.mem_cons_self) (by decide)

theorem exponentOf_spelled (e : Int) :
    exponentOf ('e' :: ((if e < 0 then "-" else "") ++ toString e.natAbs).toList) = e := by
  rw [String.toList_append, Nat.toString_eq_ofList_toDigits, String.toList_ofList]
  split
  · change -(digitsValue (Nat.toDigits 10 e.natAbs) : Int) = e
    rw [digitsValue_toDigits]
    omega
  · refine (exponentOf_digits isDigit_of_mem_toDigits).trans ?_
    rw [digitsValue_toDigits]
    omega

theorem scientific_written (d : Decimal) : d.Written (d.scientific "").toList := by
  obtain ⟨n, k⟩ := d
  have numeral : ∀ c ∈ Nat.toDigits 10 n, c.isDigit = true := isDigit_of_mem_toDigits
  have number := digitsValue_toDigits n
  have some : Nat.toDigits 10 n ≠ [] := Nat.toDigits_ne_nil
  unfold scientific
  dsimp only
  generalize Nat.toDigits 10 n = digits at numeral number some
  generalize point : (digits.length : Int) + k - 1 = e
  have exponent := exponentOf_spelled e
  rw [String.append_assoc, String.append_assoc, String.toList_append]
  generalize (if e < 0 then "-" else "") ++ toString e.natAbs = ending at exponent ⊢
  rw [show ("e" ++ ending).toList = 'e' :: ending.toList from String.toList_append]
  cases digits with
  | nil => exact absurd rfl some
  | cons first more =>
    cases more with
    | nil =>
      rw [String.toList_ofList]
      refine .unpointed some numeral _ ?_
      rw [number, exponent, ← point]
      rw [List.length_singleton]
      congr 2
      omega
    | cons second rest =>
      rw [List.forall_mem_cons] at numeral
      rw [String.toList_ofList]
      refine .pointed (List.cons_ne_nil first []) (List.forall_mem_singleton.mpr numeral.1) numeral.2 ?_ ?_
      · rw [List.head?_cons]
        exact fun c head => (Option.some.inj head) ▸ rfl
      · rw [List.singleton_append, number, exponent, ← point]
        rw [List.length_cons]
        congr 2
        omega

end Decimal

namespace Binary64

/-- The sign and the magnitude are all there is to a number. -/
theorem ext_of_magnitude {x y : Binary64} (magnitude : x.magnitude = y.magnitude) (negative : x.negative = y.negative) :
    x = y := by
  have half : twoPow 63 = 9223372036854775808 := rfl
  rw [Binary64.magnitude, Binary64.magnitude, half] at magnitude
  rw [Binary64.negative, Binary64.negative, half, decide_eq_decide] at negative
  have low := x.bits.toNat_lt
  have high := y.bits.toNat_lt
  obtain ⟨bits⟩ := x
  obtain ⟨others⟩ := y
  have same : bits.toNat = others.toNat := by
    dsimp only at *
    omega
  rw [UInt64.toNat_inj.mp same]

theorem not_nan_of_infinite {x : Binary64} (infinite : x.isInfinite = true) : x.isNaN = false := by
  rw [isNaN, beq_iff_eq.mp infinite]
  exact decide_eq_false (Nat.lt_irrefl _)

end Binary64

namespace Number

/-! ### Texts of numbers -/

/-- Whether a number is written with a sign. -/
def signed : Number → Bool
  | .int i => i < 0
  | .float x => ! x.isNaN && x.negative

/-- Whether `body` is how a number is written after its sign. -/
inductive Body : Number → List Char → Prop
  | integer (i : Int) : Body (.int i) (Nat.toDigits 10 i.natAbs)
  | nan {x : Binary64} (nan : x.isNaN = true) : Body (.float x) ['.', 'n', 'a', 'n']
  | infinite {x : Binary64} (infinite : x.isInfinite = true) : Body (.float x) ['.', 'i', 'n', 'f']
  | numeral {x : Binary64} {body : List Char} (number : x.isNaN = false) (written : (Decimal.shortest x).Written body) :
      Body (.float x) body

theorem text_body_int (i : Int) : ∃ body, Body (.int i) body ∧
    ((int i).text .yaml).toList = (if (int i).signed then ['-'] else []) ++ body := by
  refine ⟨_, .integer i, ?_⟩
  cases i with
  | ofNat n => exact Nat.toList_repr
  | negSucc n =>
    have sign : (int (.negSucc n)).signed = true := decide_eq_true (Int.negSucc_lt_zero n)
    have minus : ("-" ++ (n + 1).repr).toList = '-' :: (n + 1).repr.toList := String.toList_append
    rw [sign, if_pos rfl]
    exact minus.trans (congrArg ('-' :: ·) Nat.toList_repr)

theorem text_body_float (x : Binary64) : ∃ body, Body (.float x) body ∧
    ((float x).text .yaml).toList = (if (float x).signed then ['-'] else []) ++ body := by
  have numeral (d : Decimal) (isPositional : Bool) : d.Written (if isPositional
      then d.positional FloatStyle.yaml.fraction else d.scientific FloatStyle.yaml.positive).toList := by
    split
    · exact d.positional_written
    · exact d.scientific_written
  rw [text, Binary64.text, signed]
  by_cases nan : x.isNaN = true
  · rw [if_pos nan, nan]
    exact ⟨_, .nan nan, rfl⟩
  · rw [if_neg nan]
    rw [Bool.not_eq_true] at nan
    have sign : (if x.negative then "-" else "").toList = if (! x.isNaN && x.negative) then ['-'] else [] := by
      rw [nan]
      cases x.negative <;> rfl
    dsimp only
    split
    · rename_i infinite
      rw [String.toList_append, sign]
      exact ⟨_, .infinite infinite, rfl⟩
    · rw [String.toList_append, sign]
      exact ⟨_, .numeral nan (numeral _ _), rfl⟩

theorem text_body (n : Number) :
    ∃ body, Body n body ∧ (n.text .yaml).toList = (if n.signed then ['-'] else []) ++ body := by
  cases n with
  | int i => exact text_body_int i
  | float x => exact text_body_float x

variable {n m : Number} {x y : Binary64} {body other : List Char}

theorem Body.first (isBody : Body n body) : ∃ c ∈ body.head?, c = '.' ∨ c.isDigit = true := by
  cases isBody with
  | integer i =>
    obtain ⟨c, first, digit⟩ := Decimal.first_of_digits (@Nat.toDigits_ne_nil i.natAbs 10) isDigit_of_mem_toDigits []
    rw [List.append_nil] at first
    exact ⟨c, first, .inr digit⟩
  | nan | infinite => exact ⟨'.', rfl, .inl rfl⟩
  | numeral _ written =>
    obtain ⟨c, first, digit⟩ := written.first
    exact ⟨c, first, .inr digit⟩

theorem Body.not_signed (isBody : Body n body) : '-' ∉ body.head? := by
  intro head
  obtain ⟨c, first, kind⟩ := isBody.first
  obtain rfl := Option.some.inj (head.symm.trans first)
  exact absurd kind (by decide)

/-- The sign of a number and what stands after it are told by its text. -/
theorem Body.unique (isBody : Body n body) (isOther : Body m other) {a b : Bool}
    (same : (if a then ['-'] else []) ++ body = (if b then ['-'] else []) ++ other) : a = b ∧ body = other := by
  have first := isBody.not_signed
  have second := isOther.not_signed
  cases a <;> cases b
  · exact ⟨rfl, same⟩
  · subst same
    exact absurd rfl first
  · subst same
    exact absurd rfl second
  · exact ⟨rfl, (List.cons.inj same).2⟩

theorem Body.not_digits (isBody : Body (.float x) body) : ∃ c ∈ body, c.isDigit = false := by
  cases isBody with
  | nan | infinite => exact ⟨'.', List.mem_cons_self, rfl⟩
  | numeral _ written => exact written.mark

/-- What stands for no number or for infinity is no numeral. -/
theorem Body.not_word (written : (Decimal.shortest x).Written ('.' :: body)) : False := by
  obtain ⟨c, first, digit⟩ := written.first
  obtain rfl := Option.some.inj first
  exact absurd digit (by decide)

theorem Body.same_float (isBody : Body (.float x) body) (isOther : Body (.float y) body)
    (sign : Number.signed (.float x) = Number.signed (.float y)) : Yaml.sameKeyNumber (.float x) (.float y) = true := by
  rw [Yaml.sameKeyNumber, Bool.or_eq_true, Bool.and_eq_true]
  have same (xNumber : x.isNaN = false) (yNumber : y.isNaN = false) (magnitude : x.magnitude = y.magnitude) :
      x.sameNumber y = true := by
    rw [Number.signed, Number.signed, xNumber, yNumber] at sign
    rw [Binary64.ext_of_magnitude magnitude sign, Binary64.sameNumber, yNumber]
    simp
  cases isBody with
  | nan xNan =>
    cases isOther with
    | nan yNan => exact .inl ⟨xNan, yNan⟩
    | numeral _ written => exact (not_word written).elim
  | infinite xInfinite =>
    cases isOther with
    | infinite yInfinite =>
      have magnitude : x.magnitude = y.magnitude := (beq_iff_eq.mp xInfinite).trans (beq_iff_eq.mp yInfinite).symm
      exact .inr (same (Binary64.not_nan_of_infinite xInfinite) (Binary64.not_nan_of_infinite yInfinite) magnitude)
    | numeral _ written => exact (not_word written).elim
  | numeral xNumber written =>
    cases isOther with
    | nan | infinite => exact (not_word written).elim
    | numeral yNumber writtenToo =>
      exact .inr (same xNumber yNumber (Decimal.magnitude_eq_of_value (written.value.symm.trans writtenToo.value)))

theorem Body.same_int {i j : Int} (isBody : Body (.int i) body) (isOther : Body (.int j) body)
    (sign : Number.signed (.int i) = Number.signed (.int j)) : Yaml.sameKeyNumber (.int i) (.int j) = true := by
  have value (k : Int) (isBody : Body (.int k) body) : digitsValue body = k.natAbs := by
    cases isBody
    exact Decimal.digitsValue_toDigits _
  have magnitude : i.natAbs = j.natAbs := (value i isBody).symm.trans (value j isOther)
  rw [Number.signed, Number.signed, decide_eq_decide] at sign
  rw [Yaml.sameKeyNumber, beq_iff_eq]
  omega

theorem Body.same (isBody : Body n body) (isOther : Body m body) (sign : n.signed = m.signed) :
    Yaml.sameKeyNumber n m = true := by
  -- only an integer is written in digits alone
  have apart {i : Int} {z : Binary64} (isInt : Body (.int i) body) (isFloat : Body (.float z) body) : False := by
    obtain ⟨c, member, other⟩ := isFloat.not_digits
    cases isInt
    exact absurd (isDigit_of_mem_toDigits c member) (by simp [other])
  cases n with
  | int i =>
    cases m with
    | int j => exact isBody.same_int isOther sign
    | float y => exact (apart isBody isOther).elim
  | float x =>
    cases m with
    | int j => exact (apart isOther isBody).elim
    | float y => exact isBody.same_float isOther sign

/-- No number is written like a word. -/
theorem text_ne_word (n : Number) {word : String} {c : Char} (start : c ∈ word.toList.head?)
    (letter : c ≠ '-' ∧ c ≠ '.' ∧ c.isDigit = false) : n.text .yaml ≠ word := by
  rintro rfl
  obtain ⟨body, isBody, text⟩ := n.text_body
  obtain ⟨first, head, kind⟩ := isBody.first
  rw [text] at start
  cases sign : n.signed with
  | true =>
    rw [sign] at start
    exact letter.1 (Option.some.inj start).symm
  | false =>
    rw [sign] at start
    obtain rfl := Option.some.inj (start.symm.trans head)
    rw [letter.2.2] at kind
    simp [letter.2.1] at kind

end Number

/-- Numbers that are written alike are the same key. -/
theorem Yaml.sameKeyNumber_of_text {n m : Number} (same : n.text .yaml = m.text .yaml) : sameKeyNumber n m = true := by
  obtain ⟨body, isBody, text⟩ := n.text_body
  obtain ⟨other, isOther, otherText⟩ := m.text_body
  obtain ⟨sign, rfl⟩ := isBody.unique isOther (by rw [← text, ← otherText, same])
  exact isBody.same isOther sign

end StackCompiler
