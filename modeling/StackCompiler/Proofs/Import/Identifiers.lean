import StackCompiler.Proofs.Import.Lowering

/-!
The identifiers that entries are given. Each was free when it was taken, and is the name of
its entry as far as that one is free.
-/
namespace StackCompiler.Import

open Rust (NameTable)
open Rust.NameTable (Takes)

/-- `ident` is the name of an entry, with what the entry's kind adds where the name may not be shared,
    and with a number where that is taken too. -/
def IsIdentFor (kind : EntryKind) (logical ident : String) : Prop :=
  ∃ base stem, Rust.declarationName? logical = some base ∧
    (stem = base ∨ kind.isReferable = false ∧ stem = base ++ kind.suffix) ∧
    (ident = stem ∨ ∃ n, 2 ≤ n ∧ ident = NameTable.withNumber stem n)

variable {before after : NameTable}

theorem run_freshIdent_eq_ok {base : String} {result : String × NameTable} :
    (freshIdent base).run before = .ok result ↔ before.derive base = result := by
  exact pure_eq_ok (before.derive base) result

theorem claimIdent_takes {kind : EntryKind} {logical ident : String}
    (done : (claimIdent kind logical).run before = .ok (ident, after)) :
    IsIdentFor kind logical ident ∧ Takes before [ident] after := by
  unfold claimIdent at done
  split at done
  case h_1 => exact absurd done (run_throw_ne_ok _ _)
  case h_2 base named =>
    rw [run_bind_eq_ok] at done
    obtain ⟨_, _, got, done⟩ := done
    cases got
    have derived := run_freshIdent_eq_ok.mp done
    have stem := NameTable.derive_stem before (if ! kind.isReferable && before.contains base then base ++ kind.suffix else base)
    rw [derived] at stem
    refine ⟨⟨base, _, named, ?_, stem⟩, .derive derived⟩
    split
    case isTrue clash => exact .inr ⟨by simpa using (Bool.and_eq_true_iff.mp clash).1, rfl⟩
    case isFalse => exact .inl rfl

theorem assignEach_takes {keys : List (EntryKind × String)} {entries : List ((EntryKind × String) × String)}
    (done : (keys.mapM fun (kind, logical) => do return ((kind, logical), ← claimIdent kind logical) :
      Lowering (List ((EntryKind × String) × String))).run before = .ok (entries, after)) :
    entries.map (·.1) = keys ∧ (∀ e ∈ entries, IsIdentFor e.1.1 e.1.2 e.2) ∧ Takes before (entries.map (·.2)) after := by
  induction keys generalizing before entries with
  | nil =>
    simp only [List.mapM_nil, run_pure_eq_ok, Prod.mk.injEq] at done
    obtain ⟨rfl, rfl⟩ := done
    exact ⟨rfl, List.forall_mem_nil _, .none before⟩
  | cons key rest ih =>
    simp only [List.mapM_cons, run_bind_eq_ok, run_pure_eq_ok, Prod.mk.injEq] at done
    obtain ⟨_, mid, ⟨ident, _, claimed, rfl, rfl⟩, others, _, later, rfl, rfl⟩ := done
    obtain ⟨own, taken⟩ := claimIdent_takes claimed
    obtain ⟨keys, named, takes⟩ := ih later
    exact ⟨congrArg (key :: ·) keys, List.forall_mem_cons.mpr ⟨own, named⟩, taken.append takes⟩

theorem assignIdents_takes {t : Template} {ids : Identifiers}
    (done : (assignIdents t).run before = .ok (ids, after)) :
    ids.entries.map (·.1) = entriesOf t ∧ (∀ e ∈ ids.entries, IsIdentFor e.1.1 e.1.2 e.2) ∧
      Takes before ids.idents after := by
  unfold assignIdents at done
  simp only [run_bind_eq_ok, run_pure_eq_ok, Prod.mk.injEq] at done
  obtain ⟨entries, _, each, rfl, rfl⟩ := done
  exact assignEach_takes each

/-- Where the keys of entries differ, each entry has the identifier that it was given. -/
theorem Identifiers.map_of {ids : Identifiers} (distinct : (ids.entries.map (·.1)).Nodup) :
    (ids.entries.map (·.1)).map (fun key => ids.of key.1 key.2) = ids.idents := by
  rw [List.map_map]
  refine List.map_congr_left fun entry member => ?_
  have found : ids.find? entry.1.1 entry.1.2 = some entry.2 := lookup_of_mem distinct member
  simp [Identifiers.of, found]

end StackCompiler.Import
