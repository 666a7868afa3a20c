/-!
Texts as bytes. The order of texts by characters is the order of their bytes, position by
position.
-/
namespace StackCompiler.Text

/-- The bytes of a text. -/
def bytes (s : String) : List UInt8 := s.toUTF8.data.toList

theorem bytes_eq_flatMap (s : String) : bytes s = s.toList.flatMap String.utf8EncodeChar := by
  unfold bytes String.toUTF8
  rw [← String.utf8Encode_toList, List.utf8Encode]
  simp

/-- The bytes of a lesser character are less, whatever comes after the two characters. -/
theorem utf8EncodeChar_append_lt {c d : Char} (less : c < d) (rest other : List UInt8) :
    String.utf8EncodeChar c ++ rest < String.utf8EncodeChar d ++ other := by
  have values : c.val.toNat < d.val.toNat := less
  have bounded : d.val.toNat < 0x110000 := by
    have valid := d.valid
    simp only [UInt32.isValidChar, Nat.isValidChar] at valid
    omega
  have digits (n : Nat) : n / 4096 = n / 64 / 64 ∧ n / 262144 = n / 64 / 64 / 64 := by omega
  unfold String.utf8EncodeChar
  simp only [digits]
  generalize c.val.toNat = v at *
  generalize d.val.toNat = w at *
  -- The first byte tells how many follow, and the bytes are the digits of the value.
  repeat' split
  all_goals
    simp only [List.cons_append, List.nil_append, List.cons_lt_cons_iff, UInt8.lt_iff_toNat_lt,
      ← UInt8.toNat_inj, UInt8.toNat_ofNat']
    omega

/-- Texts compare as their bytes do. -/
theorem bytes_lt {s t : String} (less : s < t) : bytes s < bytes t := by
  rw [String.lt_iff] at less
  rw [bytes_eq_flatMap, bytes_eq_flatMap]
  generalize s.toList = cs at *
  generalize t.toList = ds at *
  induction cs generalizing ds with
  | nil =>
    cases ds with
    | nil => exact absurd less (List.lt_irrefl [])
    | cons d ds =>
      rw [List.flatMap_nil, List.flatMap_cons]
      cases encoded : String.utf8EncodeChar d with
      | nil => exact absurd encoded String.utf8EncodeChar_ne_nil
      | cons byte bytes => exact List.nil_lt_cons _ _
  | cons c cs ih =>
    cases ds with
    | nil => exact absurd less (List.not_lt_nil _)
    | cons d ds =>
      rw [List.flatMap_cons, List.flatMap_cons]
      rcases List.cons_lt_cons_iff.mp less with first | ⟨rfl, later⟩
      · exact utf8EncodeChar_append_lt first _ _
      · exact List.append_left_lt (ih ds later)

/-- Lists of texts compare, position by position, as the lists of their bytes do. -/
theorem map_bytes_lt {names others : List String} (less : names < others) :
    names.map bytes < others.map bytes :=
  List.map_lt (fun _ _ => bytes_lt) less

end StackCompiler.Text
