import Mathlib.Data.Matrix.Mul
import PivotedLU.Proofs.Elimination.Pivots
import PivotedLU.Proofs.Elimination.Recurrence
import PivotedLU.Proofs.Exact

/-!
# Elimination over an ordered field

With exact arithmetic the table that a complete run leaves holds the two factors of the original
table with its rows reordered.
-/

namespace PivotedLU.Kernel

variable {K : Type} [Field K] [LinearOrder K] {n c k : Nat} {tol : K}
  {A M : Nat → Nat → K} {π : Equiv.Perm (Fin n)}

/-! ## Pivots -/

theorem abs_le_bestPivot {i r : Nat} (column : Nat → K) (hir : i ≤ r) (hr : r < n) :
    |column r| ≤ (bestPivot n i column).size :=
  not_lt.mp (of_decide_eq_false (not_less_bestPivot column hir hr))

theorem Eliminated.lt_abs_pivot (htol : 0 ≤ tol) (h : Eliminated n tol A c M π k) (j : Fin n)
    (hj : j < c) : tol < |M j j| :=
  of_decide_eq_true (h.less_pivot (decide_eq_true htol) j hj)

/-! ## Factors -/

/-- The unit lower factor held below the diagonal of a table. -/
def lowerPart {α : Type} [Zero α] [One α] (M : Nat → Nat → α) (i j : Nat) : α :=
  if j < i then M i j else if j = i then 1 else 0

/-- The upper factor held on and above the diagonal of a table. -/
def upperPart {α : Type} [Zero α] (M : Nat → Nat → α) (i j : Nat) : α :=
  if i ≤ j then M i j else 0

/-- What the first `c` columns left below the diagonal, with ones on the diagonal. -/
def lowerUpTo {α : Type} [Zero α] [One α] (c : Nat) (M : Nat → Nat → α) (i j : Nat) : α :=
  if j < i ∧ j < c then M i j else if j = i then 1 else 0

/-- What is still to be eliminated after `c` columns: the table without their multipliers. -/
def upperFrom {α : Type} [Zero α] (c : Nat) (M : Nat → Nat → α) (i j : Nat) : α :=
  if j < i ∧ j < c then 0 else M i j

theorem sum_lowerUpTo_mul (c : Nat) (M : Nat → Nat → K) (y : Nat → K) {r : Nat} (hr : r < n) :
    ∑ k ∈ Finset.range n, lowerUpTo c M r k * y k =
      ∑ k ∈ Finset.range (min r c), M r k * y k + y r := by
  have hsplit : ∀ k, lowerUpTo c M r k * y k =
      (if k < min r c then M r k * y k else 0) + if k = r then y k else 0 := by
    intro k
    unfold lowerUpTo
    split_ifs <;> first | omega | simp
  have hfilter : (Finset.range n).filter (· < min r c) = Finset.range (min r c) := by
    ext k
    simp only [Finset.mem_filter, Finset.mem_range]
    omega
  rw [Finset.sum_congr rfl fun k _ => hsplit k, Finset.sum_add_distrib, Finset.sum_ite_eq',
    if_pos (Finset.mem_range.mpr hr), ← Finset.sum_filter, hfilter]

variable [IsStrictOrderedRing K]

theorem Eliminated.pivot_ne_zero (htol : 0 ≤ tol) (h : Eliminated n tol A c M π k) (j : Fin n)
    (hj : j < c) : M j j ≠ 0 :=
  abs_pos.mp (htol.trans_lt (h.lt_abs_pivot htol j hj))

/-- At every column the table holds two factors of the original one with its rows reordered. -/
theorem Eliminated.sum_partial (htol : 0 ≤ tol) (h : Eliminated n tol A c M π k) (r j : Fin n) :
    ∑ k ∈ Finset.range n, lowerUpTo c M r k * upperFrom c M k j = A (π r) j := by
  have hrec := h.recurrence r j
  rw [sum_lowerUpTo_mul c M _ r.isLt]
  rcases Nat.lt_or_ge j (min r c) with hj | hj
  · rw [recurrence_of_lt hj, lessProducts_eq_sub_sum _ _ (Nat.zero_le _),
      eq_div_iff (h.pivot_ne_zero htol j (by omega)), ← Finset.range_eq_Ico] at hrec
    -- The sum ends at the diagonal, where the multiplier meets its pivot.
    have hend : ∑ k ∈ Finset.range (min r c), M r k * upperFrom c M k j =
        ∑ k ∈ Finset.range (j + 1), M r k * M k j := by
      refine (Finset.sum_subset (Finset.range_mono hj) fun k hk hkj => ?_).symm.trans
        (Finset.sum_congr rfl fun k hk => ?_)
      · rw [Finset.mem_range] at hk hkj
        rw [upperFrom, if_pos (by omega), mul_zero]
      · rw [Finset.mem_range] at hk
        rw [upperFrom, if_neg (by omega)]
    rw [hend, Finset.sum_range_succ, hrec, upperFrom, if_pos (by omega)]
    ring
  · rw [recurrence_of_le hj, lessProducts_eq_sub_sum _ _ (Nat.zero_le _), ← Finset.range_eq_Ico] at hrec
    have hrows : ∀ k ∈ Finset.range (min r c), M r k * upperFrom c M k j = M r k * M k j := by
      intro k hk
      rw [Finset.mem_range] at hk
      rw [upperFrom, if_neg (by omega)]
    rw [Finset.sum_congr rfl hrows, upperFrom, if_neg (by omega), hrec]
    ring

/-- A complete run factors the table with its rows reordered. -/
theorem Eliminated.sum_factors (htol : 0 ≤ tol) (h : Eliminated n tol A n M π k) (r j : Fin n) :
    ∑ k ∈ Finset.range n, lowerPart M r k * upperPart M k j = A (π r) j := by
  rw [← h.sum_partial htol r j]
  refine Finset.sum_congr rfl fun k hk => ?_
  have hk := Finset.mem_range.mp hk
  have hlower : lowerPart M r k = lowerUpTo n M r k := by
    simp only [lowerPart, lowerUpTo, hk, and_true]
  have hupper : upperPart M k j = upperFrom n M k j := by
    simp only [upperPart, upperFrom, j.isLt, and_true, ← Nat.not_le, ite_not]
  rw [hlower, hupper]

end PivotedLU.Kernel
