import Mathlib.LinearAlgebra.Matrix.Block
import Mathlib.LinearAlgebra.Matrix.NonsingularInverse
import PivotedLU.Proofs.Elimination.Exact

/-!
# Dependent columns

Over an ordered field, elimination without tolerance stops at the first column that depends on the
ones before it. The factors of the unfinished run carry the dependence over from the table it left
to the original one.
-/

namespace PivotedLU.Kernel

/-- The first rows and columns of a table. -/
def squareOf {α : Type} (n : Nat) (T : Nat → Nat → α) : Matrix (Fin n) (Fin n) α :=
  Matrix.of fun i j => T i j

/-! ## Columns of a table that is partly eliminated -/

section Columns

variable {K : Type} [Field K] {n : Nat} {π : Equiv.Perm (Fin n)} {A L U : Matrix (Fin n) (Fin n) K}

/-- Neither an invertible factor nor a new order of the rows changes which columns depend on which. -/
theorem linearIndepOn_col_iff (hL : IsUnit L) (h : L * U = A.submatrix π id) (s : Set (Fin n)) :
    LinearIndepOn K A.col s ↔ LinearIndepOn K U.col s := by
  have hcols : LinearMap.funLeft K K π ∘ A.col = L.mulVecLin ∘ U.col := by
    funext j i
    exact (congrFun (congrFun h i) j).symm
  have hreorder : Function.Injective (LinearMap.funLeft K K π) :=
    LinearMap.funLeft_injective_of_surjective K K π π.surjective
  have hfactor : Function.Injective L.mulVecLin := Matrix.mulVec_injective_iff_isUnit.mpr hL
  rw [← LinearMap.linearIndepOn_iff_of_injOn _ hreorder.injOn, hcols,
    LinearMap.linearIndepOn_iff_of_injOn _ hfactor.injOn]

/-- The first `c` columns of a matrix, followed by columns of the identity. -/
def firstColumns (c : Nat) (U : Matrix (Fin n) (Fin n) K) : Matrix (Fin n) (Fin n) K :=
  Matrix.of fun i j => if j < c then U i j else if i = j then 1 else 0

/-- Columns with a pivot each and nothing below it are independent. -/
theorem linearIndepOn_col_of_pivots {c : Nat} (hzero : ∀ i j : Fin n, j < i → j < c → U i j = 0)
    (hpivot : ∀ j : Fin n, j < c → U j j ≠ 0) : LinearIndepOn K U.col {j | j < c} := by
  have htriangular : (firstColumns c U).IsUpperTriangular := by
    intro i j hji
    rw [firstColumns, Matrix.of_apply]
    split_ifs with hj hij
    · exact hzero i j hji hj
    · exact absurd hij hji.ne'
    · rfl
  have hdet : (firstColumns c U).det ≠ 0 := by
    rw [Matrix.det_of_isUpperTriangular htriangular]
    refine Finset.prod_ne_zero_iff.mpr fun j _ => ?_
    rw [firstColumns, Matrix.of_apply, if_pos rfl]
    split_ifs with hj
    · exact hpivot j hj
    · exact one_ne_zero
  refine ((Matrix.linearIndependent_cols_of_det_ne_zero hdet).linearIndepOn _).congr ?_
  intro j hj
  funext i
  exact if_pos hj

/-- More columns than rows that are not zero in them are dependent. -/
theorem not_linearIndepOn_col {c : Fin n} (hzero : ∀ i j, c ≤ i → j ≤ c → U i j = 0) :
    ¬ LinearIndepOn K U.col (Set.Iic c) := by
  intro hind
  have hspan : ∀ v ∈ Submodule.span K (U.col '' Set.Iic c), ∀ i, c ≤ i → v i = 0 := by
    intro v hv i hi
    induction hv using Submodule.span_induction with
    | mem v hv =>
        obtain ⟨j, hj, rfl⟩ := hv
        exact hzero i j hi hj
    | zero => rfl
    | add v w _ _ hv hw => rw [Pi.add_apply, hv, hw, add_zero]
    | smul a v _ hv => rw [Pi.smul_apply, hv, smul_zero]
  -- So nothing is lost when only the rows before `c` are kept.
  have hinj : Set.InjOn (LinearMap.funLeft K K (Fin.castLE c.isLt.le))
      (Submodule.span K (U.col '' Set.Iic c)) := by
    intro v hv w hw hvw
    funext i
    rcases lt_or_ge i c with hi | hi
    · exact congrFun hvw ⟨i, hi⟩
    · rw [hspan v hv i hi, hspan w hw i hi]
  have hrows := ((LinearMap.linearIndepOn_iff_of_injOn _ hinj).mpr hind).linearIndependent
  have hcolumns : Fintype.card (Set.Iic c) = c + 1 :=
    (Fintype.card_of_finset' (Finset.Iic c) fun _ => by simp).trans (Fin.card_Iic c)
  have hcard := hrows.fintype_card_le_finrank
  rw [Module.finrank_fin_fun, hcolumns] at hcard
  exact Nat.not_succ_le_self _ hcard

end Columns

/-! ## The column at which elimination stops -/

variable {K : Type} [Field K] [LinearOrder K] [IsStrictOrderedRing K] {n k : Nat} {tol : K}
  {A M : Nat → Nat → K} {π : Equiv.Perm (Fin n)}

theorem isUnit_lowerUpTo (c : Nat) (M : Nat → Nat → K) : IsUnit (squareOf n (lowerUpTo c M)) := by
  have htriangular : (squareOf n (lowerUpTo c M)).IsLowerTriangular := by
    intro i j hij
    have hij : (i : Nat) < j := hij
    rw [squareOf, Matrix.of_apply, lowerUpTo, if_neg (by omega), if_neg (by omega)]
  rw [Matrix.isUnit_iff_isUnit_det, Matrix.det_of_isLowerTriangular _ htriangular]
  simp [squareOf, lowerUpTo]

theorem Eliminated.lowerUpTo_mul_upperFrom {c : Nat} (htol : 0 ≤ tol)
    (h : Eliminated n tol A c M π k) :
    squareOf n (lowerUpTo c M) * squareOf n (upperFrom c M) = (squareOf n A).submatrix π id := by
  ext r j
  rw [Matrix.mul_apply]
  exact (Fin.sum_univ_eq_sum_range (fun l => lowerUpTo c M r l * upperFrom c M l j) n).trans
    (h.sum_partial htol r j)

/-- Where nothing but zero is left for a pivot, the column is the first dependent one. -/
theorem Eliminated.isLeast_dependent {c : Fin n} (htol : 0 ≤ tol) (h : Eliminated n tol A c M π k)
    (hzero : ∀ r : Fin n, c ≤ r → M r c = 0) :
    IsLeast {c : Fin n | ¬ LinearIndepOn K (squareOf n A).col (Set.Iic c)} c := by
  have hiff := linearIndepOn_col_iff (isUnit_lowerUpTo c M) (h.lowerUpTo_mul_upperFrom htol)
  constructor
  · refine fun hind => not_linearIndepOn_col (fun i j hi hj => ?_) ((hiff _).mp hind)
    rw [squareOf, Matrix.of_apply, upperFrom]
    split_ifs with hdone
    · rfl
    · obtain rfl : j = c := by omega
      exact hzero i hi
  · intro c' hc'
    by_contra hlt
    have hind := linearIndepOn_col_of_pivots (c := c) (U := squareOf n (upperFrom c M))
      (fun i j hji hj => if_pos ⟨hji, hj⟩) fun j hj => ?_
    · exact hc' (((hiff _).mpr hind).mono fun j hj => lt_of_le_of_lt hj (not_le.mp hlt))
    · rw [squareOf, Matrix.of_apply, upperFrom, if_neg (by omega)]
      exact h.pivot_ne_zero htol j hj

end PivotedLU.Kernel
