import Mathlib.Algebra.BigOperators.Fin
import Mathlib.LinearAlgebra.Matrix.Determinant.Basic
import PivotedLU.Proofs.Elimination.Runs
import PivotedLU.Proofs.Factors.Singularity
import PivotedLU.Proofs.Result

/-!
# Determinants

The product of the diagonal that elimination leaves, with the sign of the row order, is the
determinant of the matrix that was factored.
-/

namespace PivotedLU

variable {σ α : Type} [Scalar α] {n k : Nat}

/-! ## What the kernel multiplies -/

namespace Kernel

/-- The product of the diagonal of a table, from the left. -/
def diagonalProduct (n : Nat) (M : Nat → Nat → α) : α :=
  (List.range' 1 (n - 1)).foldl (fun d i => d * M i i) (M 0 0)

/-- The sign of a row order with `k` exchanges. -/
def signOf (k : Nat) : α :=
  if k % 2 = 0 then 1 else -1

theorem determinant_ok {a : Reader σ α} {s : σ} {p : RowOrder} {π : Equiv.Perm (Fin n)}
    {M : Nat → Nat → α} (hn : 0 < n) (ha : ∀ i < n, a s (i * n + i) = .ok (M i i))
    (hp : p.Records π k) (hk : k < 2 ^ 63) :
    determinant a p n s = .ok (diagonalProduct n M * signOf k) := by
  have hfirst : a s 0 = .ok (M 0 0) := by simpa using ha 0 hn
  have hloop : Loop.up 1 n (fun i (d : α) => do return d * (← a s (i * n + i))) (M 0 0) =
      .ok (diagonalProduct n M) := by
    refine Loop.up_eq_foldl (fun d i => d * M i i) (fun i d _ hi => ?_) _
    rw [ha i hi]
    rfl
  rw [determinant, hfirst]
  simp only [bind, Except.bind] at hloop ⊢
  rw [hloop, hp.sign hk]
  rfl

end Kernel

theorem Factors.Factored.determinant_ok {f : Factors α} {tol : α} {A : Matrix (Fin n) (Fin n) α}
    {π : Equiv.Perm (Fin n)} (h : f.Factored tol A π k) : f.determinant =
      .ok (Kernel.diagonalProduct n (fun r c => cellAt f.lu (r * n + c)) * Kernel.signOf k) := by
  rw [Factors.determinant, h.dim]
  refine Kernel.determinant_ok h.fits.rows_pos (fun i hi => ?_) h.order
    (Nat.lt_of_le_of_lt h.table.exchanges_le h.fits.rows_lt)
  exact h.fixed_shows (fun _ => True) trivial hi hi

/-! ## Determinants over an ordered field -/

variable {K : Type} [Field K] [LinearOrder K] {tol : K} {m : Operand K}
  {A : Matrix (Fin n) (Fin n) K} {f : Factors K} {π : Equiv.Perm (Fin n)}

theorem Kernel.diagonalProduct_eq_prod (hn : 0 < n) (M : Nat → Nat → K) :
    diagonalProduct n M = ∏ i : Fin n, M i i := by
  obtain ⟨n, rfl⟩ := Nat.exists_eq_succ_of_ne_zero hn.ne'
  rw [Fin.prod_univ_eq_prod_range fun i => M i i]
  induction n with
  | zero => simp [diagonalProduct]
  | succ n ih =>
      rw [Finset.prod_range_succ, ← ih n.succ_pos]
      simp [diagonalProduct, List.range'_concat, Nat.add_comm]

theorem Kernel.signOf_eq_pow (k : Nat) : (signOf k : K) = (-1) ^ k := by
  simp only [signOf, neg_one_pow_eq_ite, Nat.even_iff]

variable [IsStrictOrderedRing K]

theorem Factors.Factored.prod_diagonal (htol : 0 ≤ tol) (h : f.Factored tol A π k) :
    ∏ i : Fin n, cellAt f.lu (i * n + i) = (-1) ^ k * A.det := by
  have hlower : (lowerMatrix n f.lu).det = 1 := by
    rw [Matrix.det_of_isLowerTriangular _ fun i j hij => lowerMatrix_of_lt hij]
    exact Finset.prod_eq_one fun i _ => lowerMatrix_self i
  have hupper : (upperMatrix n f.lu).det = ∏ i : Fin n, cellAt f.lu (i * n + i) := by
    rw [Matrix.det_of_isUpperTriangular fun i j hji => upperMatrix_of_lt hji]
    refine Finset.prod_congr rfl fun i _ => ?_
    rw [upperMatrix, Matrix.of_apply, Kernel.upperPart, if_pos (Nat.le_refl _)]
  have hdet := congrArg Matrix.det (h.lower_mul_upper htol)
  rw [Matrix.det_mul, hlower, hupper, one_mul, Matrix.det_permute, h.table.sign_eq] at hdet
  rw [hdet]
  simp

theorem Factors.Factored.determinant_exact (htol : 0 ≤ tol) (h : f.Factored tol A π k) :
    f.determinant = .ok A.det := by
  rw [h.determinant_ok, Kernel.diagonalProduct_eq_prod h.fits.rows_pos, h.prod_diagonal htol,
    Kernel.signOf_eq_pow, mul_right_comm, ← mul_pow, neg_one_mul, neg_neg, one_pow, one_mul]

theorem determinant_of_factorize (hA : m.Shows A) (htol : 0 ≤ tol)
    (hf : factorize tol (some m) = .ok f) : determinant tol (some m) = .ok A.det := by
  obtain ⟨π, k, hfactored⟩ := factored_of_factorize hA hf
  rw [determinant, hf]
  exact congrArg Result.ofFaulty (hfactored.determinant_exact htol)

/-- Without tolerance there is an error only where the determinant is zero. -/
theorem determinant_exact_cases (hA : m.Shows A) :
    determinant 0 (some m) = .ok A.det ∨
    A.det = 0 ∧ ∃ c : Fin n, determinant 0 (some m) =
      .error (.error ⟨[.routine .determinant, .routine .factorize, .column c], .singular⟩) := by
  rcases factorize_exact_cases hA with ⟨f, π, k, hok, -⟩ | ⟨c, hleast, herror⟩
  · exact .inl (determinant_of_factorize hA (le_refl 0) hok)
  · have hnot := not_isUnit_of_dependent hleast.1
    rw [Matrix.isUnit_iff_isUnit_det, isUnit_iff_ne_zero, not_not] at hnot
    refine .inr ⟨hnot, c, ?_⟩
    rw [determinant, herror]
    rfl

/-- Over an ordered field, the number that is handed over is the determinant: without tolerance for
every matrix, also beside the only error there is, that of a column without a pivot, and with a
tolerance whenever there is no error. -/
theorem determinant_eq_det (hA : m.Shows A) :
    (∃ d, handedDeterminant 0 (some m) = .ok d ∧ d.value = A.det ∧
      ∀ e, d.error = some e → ∃ c : Fin n,
        e = ⟨[.routine .determinant, .routine .factorize, .column c], .singular⟩) ∧
    ∀ tol, 0 ≤ tol → ∀ v, handedDeterminant tol (some m) = .ok ⟨v, none⟩ → v = A.det := by
  constructor
  · rcases determinant_exact_cases hA with hok | ⟨hdet, c, herror⟩
    · refine ⟨⟨A.det, none⟩, by rw [handedDeterminant, hok, Result.handed], rfl, ?_⟩
      rintro e ⟨⟩
    · refine ⟨⟨0, some _⟩, by rw [handedDeterminant, herror, Result.handed], hdet.symm, ?_⟩
      rintro e ⟨⟩
      exact ⟨c, rfl⟩
  · intro tol htol v hv
    have hv : determinant tol (some m) = .ok v := Result.ok_of_handed hv
    cases hf : factorize tol (some m) with
    | error failure =>
        rw [determinant, hf] at hv
        cases hv
    | ok f =>
        rw [determinant_of_factorize hA htol hf] at hv
        exact (Except.ok.inj hv).symm

theorem determinant_eq_det_cycled :
    handedDeterminant 1 (some (.dense (.ofMatrix !![(0 : ℚ), 2, 1; 0, 0, 3; 4, 5, 6]))) =
      .ok ⟨24, none⟩ ∧ !![(0 : ℚ), 2, 1; 0, 0, 3; 4, 5, 6].det = 24 := by
  have hv : handedDeterminant 1 (some (.dense (.ofMatrix !![(0 : ℚ), 2, 1; 0, 0, 3; 4, 5, 6]))) =
      .ok ⟨24, none⟩ := by
    decide +kernel
  exact ⟨hv, ((determinant_eq_det (Dense.shows_ofMatrix ⟨by decide, by decide, by decide⟩ _).operand).2
    1 (by decide) 24 hv).symm⟩

/-- Zero beside the error of the second column. -/
example : handedDeterminant 0 (some (.dense (.ofMatrix !![(1 : ℚ), 2; 2, 4]))) =
    .ok ⟨0, some ⟨[.routine .determinant, .routine .factorize, .column 1], .singular⟩⟩ := by
  decide +kernel

end PivotedLU
