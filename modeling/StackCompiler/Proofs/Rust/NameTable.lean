import Mathlib.Data.List.Nodup
import Mathlib.Data.List.Perm.Subperm
import Mathlib.Order.Bounds.Basic
import StackCompiler.Rust.NameTable

/-!
Names that are derived are free. Among the numbers that are tried one gives a free name,
since with `base` itself there are more of these names than the table has.

Names are asked for one after the other. A request either claims a name, which is handed out if
it is free, or has one derived, which is always handed out. Whatever the requests are, the names that
are taken are those that were handed out, and none is handed out twice (`serveAll_takes`), also where a
name is claimed that looks like one with a number.
-/
namespace StackCompiler.Rust.NameTable

variable {table : NameTable} {base : String}

@[simp] theorem contains_iff (table : NameTable) (name : String) : table.contains name = true ↔ name ∈ table.taken := by
  simp [contains]

/-- `base` with a number. -/
def withNumber (base : String) (n : Nat) : String := base ++ toString n

theorem withNumber_injective (base : String) : Function.Injective (withNumber base) := by
  intro m n same
  have digits : Nat.toDigits 10 m = Nat.toDigits 10 n := by
    have texts : toString m = toString n := (String.append_right_inj base).mp same
    rw [Nat.toString_eq_ofList_toDigits, Nat.toString_eq_ofList_toDigits] at texts
    exact String.ofList_injective texts
  have value := congrArg (fun digits => Nat.ofDigitChars 10 digits 0) digits
  simpa using value

theorem withNumber_ne (base : String) (n : Nat) : withNumber base n ≠ base := by
  intro same
  have empty : toString n = "" := String.append_eq_left_iff.mp same
  exact Nat.repr_ne_empty empty

/-- The numbers before the one that is found give names that are taken. -/
theorem exists_numbered (table : NameTable) (base : String) (tries n : Nat) :
    ∃ k, table.numbered base tries n = withNumber base k ∧ n ≤ k ∧ k ≤ n + tries ∧
      (∀ j, n ≤ j → j < k → withNumber base j ∈ table.taken) ∧
      (k < n + tries → withNumber base k ∉ table.taken) := by
  induction tries generalizing n with
  | zero => exact ⟨n, rfl, Nat.le_refl n, Nat.le_refl n, fun j _ _ => by omega, fun _ => by omega⟩
  | succ tries ih =>
    by_cases taken : withNumber base n ∈ table.taken
    · have next : table.numbered base (tries + 1) n = table.numbered base tries (n + 1) :=
        if_pos ((contains_iff table _).mpr taken)
      obtain ⟨k, found, least, most, before, free⟩ := ih (n + 1)
      refine ⟨k, next.trans found, by omega, by omega, fun j low high => ?_, fun _ => free (by omega)⟩
      rcases Nat.eq_or_lt_of_le low with rfl | low
      · exact taken
      · exact before j low high
    · have stop : table.numbered base (tries + 1) n = withNumber base n :=
        if_neg fun found => taken ((contains_iff table _).mp found)
      exact ⟨n, stop, Nat.le_refl n, by omega, fun j _ _ => by omega, fun _ => taken⟩

/-- No table holds a name and as many numbered ones as it has names. -/
theorem not_all_taken (taken : base ∈ table.taken) :
    ¬ ∀ j, 2 ≤ j → j < 2 + table.taken.length → withNumber base j ∈ table.taken := by
  intro all
  let tried := base :: (List.range' 2 table.taken.length).map (withNumber base)
  have distinct : tried.Nodup := by
    refine List.nodup_cons.mpr ⟨?_, List.Nodup.map (withNumber_injective base) List.nodup_range'⟩
    intro member
    obtain ⟨j, -, same⟩ := List.mem_map.mp member
    exact withNumber_ne base j same
  have inside : tried ⊆ table.taken := by
    refine List.cons_subset.mpr ⟨taken, fun name member => ?_⟩
    obtain ⟨j, range, rfl⟩ := List.mem_map.mp member
    obtain ⟨low, high⟩ := List.mem_range'_1.mp range
    exact all j low high
  have tooLong := (List.subperm_of_subset distinct inside).length_le
  simp only [tried, List.length_cons, List.length_map, List.length_range'] at tooLong
  omega

/-- What is derived from `base`: itself where it is free, and otherwise `base` with the least number from
    two on that makes it free. No number is tried that is more than one above how many names are taken. -/
inductive Derived (table : NameTable) (base : String) : String → Prop
  | itself (free : base ∉ table.taken) : Derived table base base
  | numbered {n : Nat} (taken : base ∈ table.taken) (least : IsLeast {k | 2 ≤ k ∧ withNumber base k ∉ table.taken} n)
      (bounded : n ≤ table.taken.length + 1) : Derived table base (withNumber base n)

theorem derive_derived (table : NameTable) (base : String) : Derived table base (table.derive base).1 := by
  unfold derive
  by_cases taken : base ∈ table.taken
  · obtain ⟨k, found, least, most, before, free⟩ := exists_numbered table base table.taken.length 2
    have bounded : k < 2 + table.taken.length := by
      by_contra last
      exact not_all_taken taken fun j low high => before j low (by omega)
    have smallest : IsLeast {k | 2 ≤ k ∧ withNumber base k ∉ table.taken} k := by
      refine ⟨⟨least, free bounded⟩, fun j candidate => ?_⟩
      by_contra lower
      exact candidate.2 (before j candidate.1 (by omega))
    rw [if_pos ((contains_iff table base).mpr taken), found]
    exact .numbered taken smallest (by omega)
  · rw [if_neg fun found => taken ((contains_iff table base).mp found)]
    exact .itself taken

/-- A derived name was free, and is taken then. -/
theorem derive_fresh (table : NameTable) (base : String) :
    (table.derive base).1 ∉ table.taken ∧ (table.derive base).2.taken = (table.derive base).1 :: table.taken := by
  refine ⟨?_, rfl⟩
  have derived := derive_derived table base
  generalize (table.derive base).1 = name at derived
  cases derived with
  | itself free => exact free
  | numbered taken least bounded => exact least.1.2

/-- A derived name is `base`, or `base` with a number from two on. -/
theorem derive_stem (table : NameTable) (base : String) :
    (table.derive base).1 = base ∨ ∃ n, 2 ≤ n ∧ (table.derive base).1 = withNumber base n := by
  have derived := derive_derived table base
  generalize (table.derive base).1 = name at derived
  cases derived with
  | itself free => exact .inl rfl
  | numbered taken least bounded => exact .inr ⟨_, least.1.1, rfl⟩

/-! ### Names that are taken one after the other -/

/-- `after` is `before` with `names` taken one after the other, each of them free. -/
structure Takes (before : NameTable) (names : List String) (after : NameTable) : Prop where
  taken : after.taken = names.reverse ++ before.taken
  distinct : before.taken.Nodup → after.taken.Nodup

namespace Takes

variable {before mid after : NameTable} {names more : List String}

theorem none (table : NameTable) : Takes table [] table := ⟨rfl, id⟩

theorem append (first : Takes before names mid) (second : Takes mid more after) : Takes before (names ++ more) after where
  taken := by rw [second.taken, first.taken, List.reverse_append, List.append_assoc]
  distinct := fun distinct => second.distinct (first.distinct distinct)

theorem derive {base ident : String} (derived : before.derive base = (ident, after)) : Takes before [ident] after := by
  obtain ⟨free, added⟩ := derive_fresh before base
  rw [derived] at free added
  exact ⟨added, fun distinct => added ▸ List.nodup_cons.mpr ⟨free, distinct⟩⟩

end Takes

/-! ### Requests -/

inductive Request where
  | claim (name : String)
  | derive (base : String)

/-- The name that is handed out, if one is, and the table after that. -/
def serve (table : NameTable) : Request → Option String × NameTable
  | .claim name => (if (table.claim name).1 then some name else none, (table.claim name).2)
  | .derive base => (some (table.derive base).1, (table.derive base).2)

/-- The names that are handed out, in the order of the requests, and the table in the end. -/
def serveAll (table : NameTable) : List Request → List String × NameTable
  | [] => ([], table)
  | request :: rest =>
    ((table.serve request).1.toList ++ ((table.serve request).2.serveAll rest).1,
      ((table.serve request).2.serveAll rest).2)

theorem serve_takes (table : NameTable) (request : Request) :
    Takes table (table.serve request).1.toList (table.serve request).2 := by
  cases request with
  | claim name =>
    rw [serve, claim]
    by_cases taken : name ∈ table.taken
    · rw [if_pos ((contains_iff table name).mpr taken)]
      exact .none table
    · rw [if_neg fun found => taken ((contains_iff table name).mp found)]
      exact ⟨rfl, fun distinct => List.nodup_cons.mpr ⟨taken, distinct⟩⟩
  | derive base => exact .derive rfl

theorem serveAll_takes (table : NameTable) (requests : List Request) :
    Takes table (table.serveAll requests).1 (table.serveAll requests).2 := by
  induction requests generalizing table with
  | nil => exact .none table
  | cons request rest ih => exact (serve_takes table request).append (ih (table.serve request).2)

/-- Over all requests to a table that was empty, no name is handed out twice, and those are taken that
    were handed out. A name that is derived next is the base or else the base with the least number from
    two on that is free; it is new, and nothing else is taken with it. -/
theorem derive_least_free {requests : List Request} {given : List String} {table : NameTable}
    (served : empty.serveAll requests = (given, table)) :
    given.Nodup ∧ (∀ name, table.contains name = true ↔ name ∈ given) ∧
      ∀ base, ∃ name after, table.derive base = (name, after) ∧ Derived table base name ∧ name ∉ given ∧
        after.taken = name :: table.taken := by
  have takes := serveAll_takes empty requests
  rw [served] at takes
  have taken : table.taken = given.reverse := takes.taken.trans (List.append_nil _)
  have held (name : String) : name ∈ table.taken ↔ name ∈ given := by rw [taken, List.mem_reverse]
  have distinct : given.Nodup := by
    rw [← List.nodup_reverse, ← taken]
    exact takes.distinct List.nodup_nil
  refine ⟨distinct, fun name => (contains_iff table name).trans (held name), fun base => ?_⟩
  obtain ⟨free, added⟩ := derive_fresh table base
  exact ⟨_, _, rfl, derive_derived table base, fun old => free ((held _).mpr old), added⟩

/-- A name that looks like one with a number is claimed before the number is come to. -/
theorem derive_least_free_skips :
    empty.serveAll [.claim "Key", .claim "Key", .derive "Key", .claim "Key3", .derive "Key", .derive "Key2"] =
        (["Key", "Key2", "Key3", "Key4", "Key22"], ⟨["Key22", "Key4", "Key3", "Key2", "Key"]⟩) ∧
      ∃ after, derive ⟨["Key22", "Key4", "Key3", "Key2", "Key"]⟩ "Key" = ("Key5", after) ∧
        "Key5" ∉ ["Key", "Key2", "Key3", "Key4", "Key22"] := by
  have served : empty.serveAll [.claim "Key", .claim "Key", .derive "Key", .claim "Key3", .derive "Key", .derive "Key2"] =
      (["Key", "Key2", "Key3", "Key4", "Key22"], ⟨["Key22", "Key4", "Key3", "Key2", "Key"]⟩) := by decide +kernel
  obtain ⟨name, after, derived, -, new, -⟩ := (derive_least_free served).2.2 "Key"
  obtain rfl : name = "Key5" := (congrArg Prod.fst derived).symm.trans (by decide +kernel)
  exact ⟨served, after, derived, new⟩

end StackCompiler.Rust.NameTable
