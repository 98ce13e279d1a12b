import PivotedLU.Proofs.Elimination.Runs
import PivotedLU.Proofs.Factors.Parts
import PivotedLU.Proofs.Matrix.Product

/-!
# Factorizations

What the factors of a matrix hold, and over an ordered field how they multiply back to it.
-/

namespace PivotedLU

/-- The factors that a complete run of elimination left for the matrix `A`. -/
structure Factors.Factored {α : Type} [Scalar α] {n : Nat} (f : Factors α) (tol : α)
    (A : Matrix (Fin n) (Fin n) α) (π : Equiv.Perm (Fin n)) (k : Nat) : Prop where
  fits : Fits n n
  dim : f.n = n
  size : f.lu.size = n * n
  order : f.order.Records π k
  table : Kernel.Eliminated n tol (entryAt A) n (fun r c => cellAt f.lu (r * n + c)) π k

theorem Factors.Factored.ended {α : Type} [Scalar α] {n : Nat} {f : Factors α} {tol : α}
    {A : Matrix (Fin n) (Fin n) α} {π : Equiv.Perm (Fin n)} {k : Nat} (h : f.Factored tol A π k) :
    Kernel.Ended n tol (entryAt A) cellAt ⟨none, f.lu, f.order⟩ π k :=
  ⟨h.order, h.table, by simp⟩

theorem Factors.Factored.of_tolerance {α : Type} [Scalar α] {n : Nat} {f : Factors α} {tol tol' : α}
    {A : Matrix (Fin n) (Fin n) α} {π : Equiv.Perm (Fin n)} {k : Nat}
    (htol : ∀ x, Scalar.atMost x tol' = true → Scalar.atMost x tol = true) (h : f.Factored tol A π k) :
    f.Factored tol' A π k :=
  { h with table := h.table.of_tolerance htol }

theorem factored_of_factorize {α : Type} [Scalar α] {n : Nat} {tol : α} {m : Operand α}
    {A : Matrix (Fin n) (Fin n) α} {f : Factors α} (hA : m.Shows A)
    (h : factorize tol (some m) = .ok f) : ∃ π k, f.Factored tol A π k := by
  obtain ⟨block, hblock, hrows⟩ := hA.flatten
  obtain ⟨e, π, k, he, hkept, hend⟩ := Kernel.decompose_ok
    (Cells.array_lawful (Nat.le_of_eq hrows.size.symm)) tol (ChangedOnly.refl _ block)
    (RowOrder.size_identity n) fun r hr c hc => hrows.cellAt hr hc
  obtain ⟨horder, htable, -⟩ := hend
  simp only [factorize, hA.isSquare, hblock, hA.rowCount, Factors.ofBlock, he, Result.ofFaulty, bind,
    Except.bind] at h
  cases hstopped : e.stopped with
  | none =>
      rw [hstopped] at h htable
      cases h
      exact ⟨π, k, hA.fits, rfl, hkept.size.trans hrows.size, horder, htable⟩
  | some c =>
      -- The answer is the error of the column, or a fault on the way to it.
      rw [hstopped] at h
      cases hcolumn : Kernel.degenerateColumn Cells.array.read n tol e.state with
      | ok column => rw [hcolumn] at h; cases h
      | error fault => rw [hcolumn] at h; cases h

/-! ## Products of the factors -/

variable {K : Type} [Field K] [LinearOrder K] [IsStrictOrderedRing K] {n k : Nat} {tol : K}
  {m : Operand K} {A : Matrix (Fin n) (Fin n) K} {f : Factors K} {π : Equiv.Perm (Fin n)}

/-- The factors multiply to the matrix with its rows in the recorded order. -/
theorem Factors.Factored.lower_mul_upper (htol : 0 ≤ tol) (h : f.Factored tol A π k) :
    Factors.lowerMatrix n f.lu * Factors.upperMatrix n f.lu = A.submatrix π id := by
  ext i j
  have hsum := h.table.sum_factors htol i j
  rw [entryAt_val, ← Fin.sum_univ_eq_sum_range (fun l =>
    Kernel.lowerPart (fun r c => cellAt f.lu (r * n + c)) i l *
      Kernel.upperPart (fun r c => cellAt f.lu (r * n + c)) l j)] at hsum
  rw [Matrix.mul_apply, Matrix.submatrix_apply, id_eq, ← hsum]
  rfl

/-- Over an ordered field, a factorization has a unit lower, an upper and a permutation matrix, and
its row permutation of the matrix is the product of the other two. -/
theorem factors_multiply_back (hA : m.Shows A) (htol : 0 ≤ tol) (h : factorize tol (some m) = .ok f) :
    ∃ (l u p pa : Dense K) (L U P : Matrix (Fin n) (Fin n) K),
      f.lower = .ok l ∧ f.upper = .ok u ∧ f.permutation = .ok p ∧
      l.Shows L ∧ u.Shows U ∧ p.Shows P ∧
      (∀ i, L i i = 1) ∧ (∀ i j, i < j → L i j = 0) ∧
      (∀ i j, j < i → U i j = 0) ∧
      (∀ i, ∃! j, P i j = 1) ∧ (∀ j, ∃! i, P i j = 1) ∧ (∀ i j, P i j ≠ 1 → P i j = 0) ∧
      multiply (some (.dense p)) (some m) = .ok pa ∧
      multiply (some (.dense l)) (some (.dense u)) = .ok pa ∧
      pa.Shows (P * A) ∧ P * A = L * U := by
  obtain ⟨π, k, hf⟩ := factored_of_factorize hA h
  obtain ⟨n', lu, order⟩ := f
  obtain rfl : n' = n := hf.dim
  obtain ⟨l, hl, hlShows⟩ := Factors.lower_ok order hf.fits hf.size
  obtain ⟨u, hu, huShows⟩ := Factors.upper_ok order hf.fits hf.size
  obtain ⟨p, hp, hpShows⟩ := Factors.permutation_ok lu hf.fits hf.order
  have hback : π.permMatrix K * A = Factors.lowerMatrix n' lu * Factors.upperMatrix n' lu := by
    rw [hf.lower_mul_upper htol, Equiv.Perm.permMatrix, PEquiv.toMatrix_toPEquiv_mul]
  obtain ⟨pa, hpa, hlu, hpaShows⟩ := multiply_eq_multiply hpShows.operand hA hlShows.operand
    huShows.operand hf.fits hback
  refine ⟨l, u, p, pa, _, _, _, hl, hu, hp, hlShows, huShows, hpShows, fun i => ?_, fun i j hij => ?_,
    fun i j hji => ?_, fun i => ?_, fun j => ?_, fun i j hij => ?_, hpa, hlu, hpaShows, hback⟩
  · exact Factors.lowerMatrix_self i
  · exact Factors.lowerMatrix_of_lt hij
  · exact Factors.upperMatrix_of_lt hji
  · refine ⟨π i, Factors.permMatrix_eq_one_iff.mpr rfl, fun j hj => ?_⟩
    exact (Factors.permMatrix_eq_one_iff.mp hj).symm
  · refine ⟨π.symm j, Factors.permMatrix_eq_one_iff.mpr (π.apply_symm_apply j), fun i hi => ?_⟩
    exact π.eq_symm_apply.mpr (Factors.permMatrix_eq_one_iff.mp hi)
  · rw [Factors.permMatrix_entry, if_neg fun h => hij (Factors.permMatrix_eq_one_iff.mpr h)]

theorem factors_multiply_back_cycled :
    ∃ f : Factors ℚ, factorize 0 (some (.dense (.ofMatrix !![0, 2, 1; 0, 0, 3; 4, 5, 6]))) = .ok f ∧
      ∃ l u p pa, f.lower = .ok l ∧ f.upper = .ok u ∧ f.permutation = .ok p ∧
        multiply (some (.dense p)) (some (.dense (.ofMatrix !![0, 2, 1; 0, 0, 3; 4, 5, 6]))) = .ok pa ∧
        multiply (some (.dense l)) (some (.dense u)) = .ok pa := by
  have hf : factorize (0 : ℚ) (some (.dense (.ofMatrix !![0, 2, 1; 0, 0, 3; 4, 5, 6]))) =
      .ok ⟨3, #[4, 5, 6, 0, 2, 1, 0, 0, 3], ⟨#[2, 0, 1, 5]⟩⟩ := by decide +kernel
  obtain ⟨l, u, p, pa, _, _, _, hl, hu, hp, -, -, -, -, -, -, -, -, -, hpa, hlu, -⟩ :=
    factors_multiply_back (Dense.shows_ofMatrix ⟨by decide, by decide, by decide⟩ _).operand
      (le_refl 0) hf
  exact ⟨_, hf, l, u, p, pa, hl, hu, hp, hpa, hlu⟩

end PivotedLU
