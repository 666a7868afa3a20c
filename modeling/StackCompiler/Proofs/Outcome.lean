import Mathlib.Data.List.Forall2

/-!
Computations that may fail, taken apart: what must have happened for a sequence of steps,
or for a step over every entry of a list, to give a result.
-/
namespace StackCompiler

variable {ε α β : Type}

@[simp] theorem pure_eq_ok (a b : α) : (pure a : Except ε α) = .ok b ↔ a = b := by
  simp [pure, Except.pure]

@[simp] theorem throw_ne_ok (e : ε) (a : α) : (throw e : Except ε α) ≠ .ok a := by
  intro same
  cases same

@[simp] theorem bind_eq_ok (x : Except ε α) (f : α → Except ε β) (b : β) :
    x >>= f = .ok b ↔ ∃ a, x = .ok a ∧ f a = .ok b := by
  cases x <;> simp [bind, Except.bind]

@[simp] theorem map_eq_ok (f : α → β) (x : Except ε α) (b : β) :
    f <$> x = .ok b ↔ ∃ a, x = .ok a ∧ f a = b := by
  cases x <;> simp [Functor.map, Except.map]

theorem pure_ne_error (a : α) (e : ε) : (pure a : Except ε α) ≠ .error e := by
  intro same
  cases same

theorem bind_eq_error (x : Except ε α) (f : α → Except ε β) (e : ε) :
    x >>= f = .error e ↔ x = .error e ∨ ∃ a, x = .ok a ∧ f a = .error e := by
  cases x <;> simp [bind, Except.bind]

theorem map_eq_error (f : α → β) (x : Except ε α) (e : ε) : f <$> x = .error e ↔ x = .error e := by
  cases x <;> simp [Functor.map, Except.map]

theorem mapM_eq_ok_iff (f : α → Except ε β) (as : List α) (bs : List β) :
    as.mapM f = .ok bs ↔ List.Forall₂ (fun a b => f a = .ok b) as bs := by
  induction as generalizing bs with
  | nil =>
    rw [List.mapM_nil, pure_eq_ok, List.forall₂_nil_left_iff]
    exact eq_comm
  | cons a as ih =>
    simp only [List.mapM_cons, bind_eq_ok, pure_eq_ok, ih, List.forall₂_cons_left_iff]
    constructor
    · rintro ⟨b, first, bs, later, rfl⟩
      exact ⟨b, bs, first, later, rfl⟩
    · rintro ⟨b, bs, first, later, rfl⟩
      exact ⟨b, first, bs, later, rfl⟩

/-- What holds of all entries of a list, seen at the entries that correspond to them. -/
theorem forall_mem_iff_of_forall₂ {R : α → β → Prop} {P : α → Prop} {Q : β → Prop} {as : List α} {bs : List β}
    (related : List.Forall₂ R as bs) (same : ∀ a ∈ as, ∀ b, R a b → (P a ↔ Q b)) :
    (∀ a ∈ as, P a) ↔ ∀ b ∈ bs, Q b := by
  induction related with
  | nil => simp
  | cons first _ ih =>
    rw [List.forall_mem_cons] at same ⊢
    rw [List.forall_mem_cons, same.1 _ first, ih same.2]

theorem eq_map_iff_of_forall₂ {R : α → β → Prop} {P : α → Prop} {f : α → β} {as : List α} {bs : List β}
    (related : List.Forall₂ R as bs) (same : ∀ a ∈ as, ∀ b, R a b → (b = f a ↔ P a)) :
    bs = as.map f ↔ ∀ a ∈ as, P a := by
  induction related with
  | nil => simp
  | cons first _ ih =>
    rw [List.forall_mem_cons] at same ⊢
    rw [List.map_cons, List.cons.injEq, same.1 _ first, ih same.2]

theorem exists_mem_of_forall₂ {R : α → β → Prop} {as : List α} {bs : List β} (related : List.Forall₂ R as bs) {b : β}
    (member : b ∈ bs) : ∃ a ∈ as, R a b := by
  induction related with
  | nil => cases member
  | @cons a _ as _ first _ ih =>
    rcases List.mem_cons.mp member with rfl | member
    · exact ⟨a, List.mem_cons_self, first⟩
    · obtain ⟨a, found, holds⟩ := ih member
      exact ⟨a, List.mem_cons_of_mem _ found, holds⟩

theorem forall₂_flatMap {γ δ : Type} {R : α → β → Prop} {S : γ → δ → Prop} {as : List α} {bs : List β}
    {f : α → List γ} {g : β → List δ} (related : List.Forall₂ R as bs)
    (each : ∀ a ∈ as, ∀ b, R a b → List.Forall₂ S (f a) (g b)) :
    List.Forall₂ S (as.flatMap f) (bs.flatMap g) := by
  induction related with
  | nil => exact .nil
  | cons first _ ih =>
    rw [List.forall_mem_cons] at each
    exact List.rel_append (each.1 _ first) (ih each.2)

end StackCompiler
