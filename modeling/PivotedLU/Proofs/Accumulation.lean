import Mathlib.Data.List.Basic
import PivotedLU.Scalar

/-!
# Accumulated products

The two inner loops of the kernels, as folds in the order in which they run: products taken away
from a value, and products added up from zero.
-/

namespace PivotedLU

variable {α : Type} [Scalar α] {f f' g g' : Nat → α} {lo hi : Nat}

/-- `v` less the products `f k * g k` for `k = lo, …, hi - 1`, taken away in this order. -/
def lessProducts (f g : Nat → α) (lo hi : Nat) (v : α) : α :=
  (List.range' lo (hi - lo)).foldl (fun v k => v - f k * g k) v

/-- The products `f k * g k` for `k = 0, …, n - 1`, added to zero in this order. -/
def sumProducts (f g : Nat → α) (n : Nat) : α :=
  (List.range' 0 n).foldl (fun v k => v + f k * g k) 0

theorem sumProducts_succ (f g : Nat → α) (n : Nat) :
    sumProducts f g (n + 1) = sumProducts f g n + f n * g n := by
  simp [sumProducts, List.range'_concat]

@[simp] theorem lessProducts_self (f g : Nat → α) (lo : Nat) (v : α) : lessProducts f g lo lo v = v := by
  simp [lessProducts]

theorem lessProducts_succ (h : lo ≤ hi) (f g : Nat → α) (v : α) :
    lessProducts f g lo (hi + 1) v = lessProducts f g lo hi v - f hi * g hi := by
  have hsub : hi + 1 - lo = (hi - lo) + 1 := by omega
  have hadd : lo + (hi - lo) = hi := by omega
  simp [lessProducts, hsub, List.range'_concat, hadd]

theorem lessProducts_congr (h : ∀ k, lo ≤ k → k < hi → f k = f' k ∧ g k = g' k) (v : α) :
    lessProducts f g lo hi v = lessProducts f' g' lo hi v := by
  refine List.foldl_ext _ _ v fun v k hk => ?_
  have hk := List.mem_range'_1.mp hk
  obtain ⟨hf, hg⟩ := h k hk.1 (by omega)
  rw [hf, hg]

end PivotedLU
