import Mathlib.Algebra.BigOperators.Intervals
import Mathlib.Algebra.Order.Field.Basic
import Mathlib.Algebra.Order.Group.Abs
import PivotedLU.Proofs.Accumulation
import PivotedLU.Proofs.Order

/-!
# Exact scalars

Every linearly ordered field is a type of scalars: arithmetic without rounding, the absolute value
and the order of the field. The accumulated products are then sums.
-/

namespace PivotedLU

variable {K : Type} [Field K] [LinearOrder K]

/-- The scalars of a linearly ordered field; all of them are finite. -/
instance (priority := low) Scalar.exact : Scalar K where
  magnitude x := |x|
  less x y := decide (x < y)
  atMost x y := decide (x ≤ y)
  finite _ := true

instance (priority := low) Scalar.exact_ordered : Scalar.Ordered K where
  less_irrefl x := decide_eq_false (lt_irrefl x)
  less_trans h h' := decide_eq_true ((of_decide_eq_true h).trans (of_decide_eq_true h'))
  less_of_atMost_of_less h h' :=
    decide_eq_true ((of_decide_eq_true h).trans_lt (of_decide_eq_true h'))
  self_of_less _ := decide_eq_true (le_refl _)
  self_of_atMost _ := ⟨decide_eq_true (le_refl _), decide_eq_true (le_refl _)⟩
  less_of_not_atMost _ _ h := decide_eq_true (not_le.mp (of_decide_eq_false h))

theorem lessProducts_eq_sub_sum (f g : Nat → K) {lo hi : Nat} (h : lo ≤ hi) (v : K) :
    lessProducts f g lo hi v = v - ∑ k ∈ Finset.Ico lo hi, f k * g k := by
  induction hi, h using Nat.le_induction with
  | base => simp
  | succ hi h ih =>
      rw [lessProducts_succ h, ih, Finset.sum_Ico_succ_top h]
      exact sub_sub _ _ _

theorem sumProducts_eq_sum (f g : Nat → K) (n : Nat) :
    sumProducts f g n = ∑ k ∈ Finset.range n, f k * g k := by
  induction n with
  | zero => rfl
  | succ n ih =>
      rw [Finset.sum_range_succ, ← ih]
      exact sumProducts_succ f g n

end PivotedLU
