import PivotedLU.Proofs.Elimination.Dependence
import PivotedLU.Proofs.Factors.Outcome
import PivotedLU.Proofs.Factors.Solution

/-!
# Singular matrices

Over an ordered field and without tolerance, the matrices that cannot be factored are the singular
ones, and the error names the first column that depends on the columns before it.
-/

namespace PivotedLU

theorem Kernel.squareOf_entryAt {α : Type} [Zero α] {n : Nat} (A : Matrix (Fin n) (Fin n) α) :
    squareOf n (entryAt A) = A := by
  ext i j
  exact entryAt_val A i j

variable {K : Type} [Field K] [LinearOrder K] [IsStrictOrderedRing K] {n : Nat} {m : Operand K}
  {A : Matrix (Fin n) (Fin n) K}

/-- Without tolerance, a column without a pivot is zero from the diagonal on. -/
theorem Kernel.eq_zero_of_stuck {c r : Nat} (column : Nat → K)
    (h : Scalar.atMost (bestPivot n c column).size 0 = true) (hcr : c ≤ r) (hr : r < n) :
    column r = 0 :=
  abs_nonpos_iff.mp ((abs_le_bestPivot column hcr hr).trans (of_decide_eq_true h))

omit [LinearOrder K] [IsStrictOrderedRing K] in
theorem not_isUnit_of_dependent {c : Fin n} (h : ¬ LinearIndepOn K A.col (Set.Iic c)) : ¬ IsUnit A :=
  fun hunit => h ((Matrix.linearIndependent_cols_iff_isUnit.mpr hunit).linearIndepOn _)

/-- Without tolerance, a matrix is factored or has a first dependent column. -/
theorem factorize_exact_cases (hA : m.Shows A) :
    (∃ f π k, factorize 0 (some m) = .ok f ∧ f.Factored 0 A π k) ∨
    ∃ c : Fin n, IsLeast {c : Fin n | ¬ LinearIndepOn K A.col (Set.Iic c)} c ∧
      factorize 0 (some m) = .error (.error ⟨[.routine .factorize, .column c], .singular⟩) := by
  rcases factorize_cases hA (decide_eq_true (le_refl (0 : K))) with hok | ⟨c, e, π, k, herror, h, hc⟩
  · exact .inl hok
  · have htable := h.table
    rw [hc, Option.getD_some] at htable
    have hleast := htable.isLeast_dependent (le_refl 0) fun r hcr =>
      Kernel.eq_zero_of_stuck (fun r => cellAt e.state (r * n + c)) (h.stuck c hc).2 hcr r.isLt
    rw [Kernel.squareOf_entryAt] at hleast
    exact .inr ⟨c, hleast, herror⟩

/-- Over an ordered field and without tolerance, exactly the invertible matrices can be factored; for
any other the error names the first column that depends linearly on the ones before it. -/
theorem factorize_ok_iff_isUnit (hA : m.Shows A) :
    ((∃ f, factorize 0 (some m) = .ok f) ↔ IsUnit A) ∧
    (¬ IsUnit A → ∃ c : Fin n, IsLeast {c : Fin n | ¬ LinearIndepOn K A.col (Set.Iic c)} c ∧
      factorize 0 (some m) = .error (.error ⟨[.routine .factorize, .column c], .singular⟩)) := by
  rcases factorize_exact_cases hA with ⟨f, π, k, hok, hf⟩ | ⟨c, hleast, herror⟩
  · have hunit := hf.isUnit (le_refl 0)
    exact ⟨iff_of_true ⟨f, hok⟩ hunit, fun hnot => absurd hunit hnot⟩
  · have hnot := not_isUnit_of_dependent hleast.1
    refine ⟨iff_of_false ?_ hnot, fun _ => ⟨c, hleast, herror⟩⟩
    rintro ⟨f, hok⟩
    rw [herror] at hok
    cases hok

theorem factorize_ok_iff_isUnit_second_column :
    ¬ IsUnit !![(0 : ℚ), 0, 1; 2, 4, 0; 1, 2, 5] ∧
    IsLeast {c | ¬ LinearIndepOn ℚ !![(0 : ℚ), 0, 1; 2, 4, 0; 1, 2, 5].col (Set.Iic c)} 1 ∧
    factorize 0 (some (.dense (.ofMatrix !![(0 : ℚ), 0, 1; 2, 4, 0; 1, 2, 5]))) =
      .error (.error ⟨[.routine .factorize, .column 1], .singular⟩) := by
  have hnot : ¬ IsUnit !![(0 : ℚ), 0, 1; 2, 4, 0; 1, 2, 5] := by
    rw [Matrix.isUnit_iff_isUnit_det, isUnit_iff_ne_zero, not_not]
    decide +kernel
  have hone : factorize (0 : ℚ) (some (.dense (.ofMatrix !![0, 0, 1; 2, 4, 0; 1, 2, 5]))) =
      .error (.error ⟨[.routine .factorize, .column 1], .singular⟩) := by decide +kernel
  obtain ⟨c, hleast, herror⟩ := (factorize_ok_iff_isUnit
    (Dense.shows_ofMatrix ⟨by decide, by decide, by decide⟩ _).operand).2 hnot
  obtain rfl : c = 1 := by
    rw [hone] at herror
    simp only [Except.error.injEq, Failure.error.injEq, Error.mk.injEq, List.cons.injEq,
      Frame.column.injEq, and_true, true_and] at herror
    omega
  exact ⟨hnot, hleast, hone⟩

end PivotedLU
