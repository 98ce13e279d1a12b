import Mathlib.LinearAlgebra.Matrix.NonsingularInverse
import PivotedLU.Proofs.Factors.Factorization
import PivotedLU.Proofs.Substitution

/-!
# Solutions and inverses

Over an ordered field the two passes of substitution undo the two factors, so what they leave solves
the system of the matrix that was factored.
-/

namespace PivotedLU

/-! ## Substitution over an ordered field -/

namespace Kernel

variable {K : Type} [Field K] {n i : Nat}

theorem sum_lowerPart_mul (M : Nat → Nat → K) (y : Nat → K) (hi : i < n) :
    ∑ k ∈ Finset.range n, lowerPart M i k * y k = ∑ k ∈ Finset.Ico 0 i, M i k * y k + y i := by
  have hsub : Finset.range (i + 1) ⊆ Finset.range n := Finset.range_mono hi
  rw [← Finset.sum_subset hsub fun k _ hk => ?_, Finset.sum_range_succ, Finset.range_eq_Ico]
  · congr 1
    · refine Finset.sum_congr rfl fun k hk => ?_
      rw [lowerPart, if_pos (Finset.mem_Ico.mp hk).2]
    · rw [lowerPart, if_neg (Nat.lt_irrefl i), if_pos rfl, one_mul]
  · have hk : ¬ k < i + 1 := fun h => hk (Finset.mem_range.mpr h)
    rw [lowerPart, if_neg (by omega), if_neg (by omega), zero_mul]

theorem sum_upperPart_mul (M : Nat → Nat → K) (x : Nat → K) (hi : i < n) :
    ∑ k ∈ Finset.range n, upperPart M i k * x k =
      M i i * x i + ∑ k ∈ Finset.Ico (i + 1) n, M i k * x k := by
  have hsub : Finset.Ico i n ⊆ Finset.range n := fun k hk =>
    Finset.mem_range.mpr (Finset.mem_Ico.mp hk).2
  rw [← Finset.sum_subset hsub fun k hkn hk => ?_, Finset.sum_eq_sum_Ico_succ_bot hi]
  · congr 1
    · rw [upperPart, if_pos (Nat.le_refl i)]
    · refine Finset.sum_congr rfl fun k hk => ?_
      rw [upperPart, if_pos (Nat.le_of_succ_le (Finset.mem_Ico.mp hk).1)]
  · have hki : ¬ i ≤ k := fun h => hk (Finset.mem_Ico.mpr ⟨h, Finset.mem_range.mp hkn⟩)
    rw [upperPart, if_neg hki, zero_mul]

/-- Without zero pivots, the passes undo the lower factor and then the upper one. -/
theorem Substituted.sum_factors [LinearOrder K] {M : Nat → Nat → K} {b x : Nat → K}
    (h : Substituted n M b x) (hpivot : ∀ i < n, M i i ≠ 0) :
    ∃ y : Nat → K, (∀ i < n, ∑ k ∈ Finset.range n, lowerPart M i k * y k = b i) ∧
      ∀ i < n, ∑ k ∈ Finset.range n, upperPart M i k * x k = y i := by
  obtain ⟨y, hforward, hbackward⟩ := h
  refine ⟨y, fun i hi => ?_, fun i hi => ?_⟩
  · have hy := hforward i hi
    rw [lessProducts_eq_sub_sum _ _ (Nat.zero_le i)] at hy
    rw [sum_lowerPart_mul M y hi, hy]
    ring
  · have hx := hbackward i hi
    rw [lessProducts_eq_sub_sum _ _ (Nat.succ_le_of_lt hi), eq_div_iff (hpivot i hi)] at hx
    rw [sum_upperPart_mul M x hi, mul_comm, hx]
    ring

end Kernel

/-! ## What the factors answer -/

namespace Factors

variable {α : Type} [Scalar α] {n k : Nat} {tol : α} {A : Matrix (Fin n) (Fin n) α} {f : Factors α}
  {π : Equiv.Perm (Fin n)}

theorem Factored.fixed_shows {σ : Type} (h : f.Factored tol A π k) (ok : σ → Prop) :
    (Reader.fixed f.lu).Shows n n ok fun r c => cellAt f.lu (r * n + c) :=
  Reader.fixed_shows (Nat.le_of_eq h.size.symm) ok

theorem Factored.rowAt_lt (h : f.Factored tol A π k) : ∀ i < n, RowOrder.rowAt π i < 2 ^ 63 :=
  fun _ hi => Nat.lt_trans (RowOrder.rowAt_lt π hi) h.fits.rows_lt

/-- A right-hand side of the right length is solved for with its entries in the recorded order. -/
theorem Factored.solve_ok (h : f.Factored tol A π k) (b : Fin n → α) :
    ∃ x : Array α, f.solve (some (Array.ofFn b)) = .ok x ∧ x.size = n ∧
      Kernel.Substituted n (fun r c => cellAt f.lu (r * n + c))
        (fun i => cellAt (Array.ofFn b) (RowOrder.rowAt π i)) (cellAt x) := by
  have hblank : n ≤ (Array.replicate n (0 : α)).size := by simp
  have hb : ∀ i < n, RowOrder.rowAt π i < (Array.ofFn b).size := fun i hi => by
    simpa using RowOrder.rowAt_lt π hi
  obtain ⟨x, hx, hkept, hsub⟩ := Kernel.solve_ok (Cells.array_lawful hblank) (h.fixed_shows _)
    (fun i hi => h.order.entry_rowAt hi) h.rowAt_lt (fun s _ i hi => Reader.fixed_eq (hb i hi) s)
    (ChangedOnly.refl _ _)
  refine ⟨x, ?_, by simpa using hkept.size, hsub⟩
  simp only [Factors.solve, h.dim, Option.map_some, Array.size_ofFn, Check.hasLength_eq h.fits.rows_lt,
    Option.getD_some, hx, bind, Except.bind]
  rfl

theorem Factored.inverse_ok (h : f.Factored tol A π k) :
    ∃ d, f.inverse = .ok d ∧ d.Shows (Matrix.of fun i j : Fin n => cellAt d.data (i * n + j)) ∧
      ∀ j < n, Kernel.Substituted n (fun r c => cellAt f.lu (r * n + c))
        (fun i => if RowOrder.rowAt π i = j then 1 else 0) fun i => cellAt d.data (i * n + j) := by
  have hblank : n * n ≤ (blank n : Array α).size := by simp [blank]
  obtain ⟨data, hdata, hkept, hsub⟩ := Kernel.invert_ok (Cells.array_lawful hblank) (h.fixed_shows _)
    (fun i hi => h.order.entry_rowAt hi) h.rowAt_lt (ChangedOnly.refl _ _)
  have hsize : data.size = n * n := by simpa [blank] using hkept.size
  refine ⟨square n data, ?_, ⟨h.fits, rfl, rfl, .of_cellAt hsize fun _ _ => rfl⟩, hsub⟩
  rw [Factors.inverse, h.dim, hdata]
  rfl

end Factors

/-! ## Answers over an ordered field -/

variable {K : Type} [Field K] [LinearOrder K] [IsStrictOrderedRing K] {n k : Nat} {tol : K}
  {m : Operand K} {A : Matrix (Fin n) (Fin n) K} {f : Factors K} {π : Equiv.Perm (Fin n)}

theorem Factors.Factored.mulVec_eq (htol : 0 ≤ tol) (h : f.Factored tol A π k) {b : Fin n → K}
    {v x : Nat → K} (hv : ∀ i : Fin n, v i = b (π i))
    (hx : Kernel.Substituted n (fun r c => cellAt f.lu (r * n + c)) v x) :
    A.mulVec (fun j => x j) = b := by
  obtain ⟨y, hlower, hupper⟩ := hx.sum_factors fun i hi => h.table.pivot_ne_zero htol ⟨i, hi⟩ hi
  have hU : (upperMatrix n f.lu).mulVec (fun j => x j) = fun i : Fin n => y i := by
    ext i
    exact (Fin.sum_univ_eq_sum_range (fun k => Kernel.upperPart _ i k * x k) n).trans
      (hupper i i.isLt)
  have hL : (lowerMatrix n f.lu).mulVec (fun i => y i) = fun i => b (π i) := by
    ext i
    rw [← hv i]
    exact (Fin.sum_univ_eq_sum_range (fun k => Kernel.lowerPart _ i k * y k) n).trans
      (hlower i i.isLt)
  have hrows : (A.submatrix π id).mulVec (fun j => x j) = fun i => b (π i) := by
    rw [← h.lower_mul_upper htol, ← Matrix.mulVec_mulVec, hU, hL]
  -- Every row of the system is the image of some row under the permutation.
  ext i
  obtain ⟨i, rfl⟩ := π.surjective i
  exact congrFun hrows i

theorem Factors.Factored.solve_exact (htol : 0 ≤ tol) (h : f.Factored tol A π k) (b : Fin n → K) :
    ∃ x : Fin n → K, f.solve (some (Array.ofFn b)) = .ok (Array.ofFn x) ∧ A.mulVec x = b := by
  obtain ⟨x, hx, hsize, hsub⟩ := h.solve_ok b
  refine ⟨fun i => cellAt x i, ?_, h.mulVec_eq htol (fun i => by simp [cellAt]) hsub⟩
  have hentries : x = Array.ofFn fun i : Fin n => cellAt x i :=
    Array.ext (by simpa using hsize) fun i hi _ => by simp [cellAt_eq hi]
  rw [hx, ← hentries]

/-- A matrix that can be factored is invertible: every right-hand side has a solution. -/
theorem Factors.Factored.isUnit (htol : 0 ≤ tol) (h : f.Factored tol A π k) : IsUnit A := by
  refine Matrix.mulVec_surjective_iff_isUnit.mp fun b => ?_
  obtain ⟨x, -, hx⟩ := h.solve_exact htol b
  exact ⟨x, hx⟩

/-- The columns of the inverse solve for the columns of the identity. -/
theorem Factors.Factored.inverse_exact (htol : 0 ≤ tol) (h : f.Factored tol A π k) :
    ∃ d B, f.inverse = .ok d ∧ d.Shows B ∧ A * B = 1 := by
  obtain ⟨d, hd, hshows, hsub⟩ := h.inverse_ok
  refine ⟨d, _, hd, hshows, ?_⟩
  ext i j
  refine congrFun (h.mulVec_eq htol (b := fun i => (1 : Matrix (Fin n) (Fin n) K) i j) (fun i => ?_)
    (hsub j j.isLt)) i
  simp only [RowOrder.rowAt_val, Matrix.one_apply, Fin.ext_iff]

/-- Over an ordered field, factors answer a right-hand side with the one solution of the system. -/
theorem factors_solve_uniquely (hA : m.Shows A) (htol : 0 ≤ tol) (h : factorize tol (some m) = .ok f)
    (b : Fin n → K) :
    ∃ x : Fin n → K, f.solve (some (Array.ofFn b)) = .ok (Array.ofFn x) ∧
      (∀ i, ∑ j, A i j * x j = b i) ∧
      ∀ y : Fin n → K, (∀ i, ∑ j, A i j * y j = b i) → y = x := by
  obtain ⟨π, k, hf⟩ := factored_of_factorize hA h
  obtain ⟨x, hx, hsolves⟩ := hf.solve_exact htol b
  refine ⟨x, hx, fun i => congrFun hsolves i, fun y hy => ?_⟩
  have hother : A.mulVec y = b := funext hy
  exact Matrix.mulVec_injective_iff_isUnit.mpr (hf.isUnit htol) (hother.trans hsolves.symm)

theorem factors_solve_uniquely_cycled :
    ∃ f : Factors ℚ, factorize 0 (some (.dense (.ofMatrix !![0, 2, 1; 0, 0, 3; 4, 5, 6]))) = .ok f ∧
      ∃ x : Fin 3 → ℚ, f.solve (some #[7, 8, 9]) = .ok (Array.ofFn x) ∧
        (∀ i, ∑ j, !![0, 2, 1; 0, 0, 3; 4, 5, 6] i j * x j = ![7, 8, 9] i) ∧
        ∀ y : Fin 3 → ℚ, (∀ i, ∑ j, !![0, 2, 1; 0, 0, 3; 4, 5, 6] i j * y j = ![7, 8, 9] i) → y = x := by
  have hf : factorize (0 : ℚ) (some (.dense (.ofMatrix !![0, 2, 1; 0, 0, 3; 4, 5, 6]))) =
      .ok ⟨3, #[4, 5, 6, 0, 2, 1, 0, 0, 3], ⟨#[2, 0, 1, 5]⟩⟩ := by decide +kernel
  exact ⟨_, hf, factors_solve_uniquely
    (Dense.shows_ofMatrix ⟨by decide, by decide, by decide⟩ _).operand (le_refl 0) hf ![7, 8, 9]⟩

/-- Over an ordered field, the inverse of a matrix is its inverse on both sides. -/
theorem inverse_two_sided {d : Dense K} (hA : m.Shows A) (htol : 0 ≤ tol)
    (h : inverse tol (some m) = .ok d) :
    ∃ e, multiply (some m) (some (.dense d)) = .ok e ∧ multiply (some (.dense d)) (some m) = .ok e ∧
      e.Shows (1 : Matrix (Fin n) (Fin n) K) := by
  cases hfactor : factorize tol (some m) with
  | error failure =>
      rw [inverse, hfactor] at h
      cases h
  | ok f =>
      obtain ⟨π, k, hf⟩ := factored_of_factorize hA hfactor
      obtain ⟨d', B, hd', hB, hright⟩ := hf.inverse_exact htol
      rw [inverse, hfactor] at h
      obtain rfl : d' = d := by
        simp only [Result.of, Result.within, bind, Except.bind, hd', Result.ofFaulty] at h
        exact Except.ok.inj h
      have hleft : B * A = 1 := mul_eq_one_comm.mp hright
      obtain ⟨e, he, he', hone⟩ := multiply_eq_multiply hA hB.operand hB.operand hA hf.fits
        (hright.trans hleft.symm)
      exact ⟨e, he, he', hright ▸ hone⟩

theorem inverse_two_sided_cycled :
    ∃ d : Dense ℚ, inverse 0 (some (.dense (.ofMatrix !![0, 2, 1; 0, 0, 3; 4, 5, 6]))) = .ok d ∧
      ∃ e, multiply (some (.dense (.ofMatrix !![0, 2, 1; 0, 0, 3; 4, 5, 6]))) (some (.dense d)) = .ok e ∧
        multiply (some (.dense d)) (some (.dense (.ofMatrix !![0, 2, 1; 0, 0, 3; 4, 5, 6]))) = .ok e ∧
        e.Shows (1 : Matrix (Fin 3) (Fin 3) ℚ) := by
  have hd : inverse (0 : ℚ) (some (.dense (.ofMatrix !![0, 2, 1; 0, 0, 3; 4, 5, 6]))) =
      .ok ⟨3, 3, #[-5 / 8, -7 / 24, 1 / 4, 1 / 2, -1 / 6, 0, 0, 1 / 3, 0], true⟩ := by decide +kernel
  exact ⟨_, hd, inverse_two_sided (Dense.shows_ofMatrix ⟨by decide, by decide, by decide⟩ _).operand
    (le_refl 0) hd⟩

end PivotedLU
