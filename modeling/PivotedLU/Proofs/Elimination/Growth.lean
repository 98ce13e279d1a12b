import Mathlib.Algebra.Order.Field.Rat
import PivotedLU.Proofs.Elimination.Exact
import PivotedLU.Proofs.Elimination.Runs

/-!
# Growth of the factors

Over an ordered field, a pivot of largest magnitude keeps every multiplier within one, so a column
can at most double the entries that are still to be eliminated.
-/

namespace PivotedLU.Kernel

variable {K : Type} [Field K] [LinearOrder K] {n c k i : Nat} {tol B : K} {A M N : Nat → Nat → K}
  {π : Equiv.Perm (Fin n)}

/-- Multipliers within one, and entries that have doubled at most once for each column that their
row went through; `c` columns are done. -/
structure Restrained (n c : Nat) (B : K) (M : Nat → Nat → K) : Prop where
  multiplier : ∀ r < n, ∀ j < min r c, |M r j| ≤ 1
  entry : ∀ r < n, ∀ j < n, min r c ≤ j → |M r j| ≤ 2 ^ min r c * B

theorem Restrained.swap {t : Nat} (h : Restrained n i B M) (hi : i < n) (ht : t < n) (hit : i ≤ t) :
    Restrained n i B fun r => M (Equiv.swap i t r) where
  multiplier r hr j hj := by
    apply h.multiplier _ (swap_lt hi ht hr) j
    rwa [min_swap hit]
  entry r hr j hj hle := by
    have hentry := h.entry _ (swap_lt hi ht hr) j hj
    rw [min_swap hit] at hentry
    exact hentry hle

variable [IsStrictOrderedRing K]

theorem Restrained.cleared (h : Restrained n i B N) (hi : i < n)
    (hpivot : ∀ r < n, i ≤ r → |N r i| ≤ |N i i|)
    (hM : ∀ r < n, ∀ j < n, M r j = cleared i N r j) : Restrained n (i + 1) B M := by
  have hmultiplier : ∀ r < n, i ≤ r → |N r i / N i i| ≤ 1 := by
    intro r hr hir
    rw [abs_div]
    exact div_le_one_of_le₀ (hpivot r hr hir) (abs_nonneg _)
  constructor
  · intro r hr j hj
    rw [hM r hr j (by omega)]
    rcases Nat.lt_or_eq_of_le (show j ≤ i by omega) with hji | rfl
    · rw [cleared_of_lt hji]
      exact h.multiplier r hr j (by omega)
    · rw [cleared_self (by omega)]
      exact hmultiplier r hr (by omega)
  · intro r hr j hj hle
    rw [hM r hr j hj]
    rcases Nat.lt_or_ge i r with hir | hri
    · rw [Nat.min_eq_right hir] at hle ⊢
      have hrow := h.entry r hr j hj (by omega)
      have htop := h.entry i hi j hj (by omega)
      rw [Nat.min_eq_right hir.le] at hrow
      rw [Nat.min_self] at htop
      rw [cleared_of_gt hir hle]
      calc |N r j - N r i / N i i * N i j|
          ≤ |N r j| + |N r i / N i i| * |N i j| := by
            rw [← abs_mul]
            exact abs_sub _ _
        _ ≤ |N r j| + |N i j| := by
            gcongr
            exact mul_le_of_le_one_left (abs_nonneg _) (hmultiplier r hr hir.le)
        _ ≤ 2 ^ i * B + 2 ^ i * B := add_le_add hrow htop
        _ = 2 ^ (i + 1) * B := by ring
    · -- Row `r` is above the cleared part.
      rw [cleared_of_le hri]
      have hrow := h.entry r hr j hj
      rw [Nat.min_eq_left hri] at hrow
      rw [Nat.min_eq_left (by omega)] at hle ⊢
      exact hrow hle

theorem Eliminated.restrained (htol : 0 ≤ tol) (hB : ∀ r < n, ∀ j < n, |A r j| ≤ B)
    (h : Eliminated n tol A c M π k) : Restrained n c B M := by
  induction h with
  | start hM =>
      constructor
      · intro r _ j hj
        omega
      · intro r hr j hj _
        simpa [hM r hr j hj] using hB r hr j hj
  | @column M M' π k i t h ht hpivot hM ih =>
      have hit : (i : Nat) ≤ t := le_of_row_bestPivot i.isLt ht
      refine (ih.swap i.isLt t.isLt hit).cleared i.isLt (fun r hr hir => ?_) hM
      -- The exchange brings the best candidate to the diagonal.
      have hsize := size_bestPivot (fun r => M r i) i.isLt (decide_eq_true htol) hpivot
      rw [ht] at hsize
      have hle : (i : Nat) ≤ Equiv.swap (i : Nat) t r := by
        have hmin := min_swap hit r
        omega
      calc |M (Equiv.swap (i : Nat) t r) i|
          ≤ (bestPivot n i fun r => M r i).size :=
            abs_le_bestPivot (fun r => M r i) hle (swap_lt i.isLt t.isLt hr)
        _ = |M (Equiv.swap (i : Nat) t i) i| := by
            rw [Equiv.swap_apply_left]
            exact hsize

/-- Over an ordered field, a complete run leaves multipliers of magnitude at most one, and row `i` of
the upper factor is within `2 ^ i` times the largest magnitude of the block. -/
theorem decompose_growth {a : Array K} {p : RowOrder} (hn : 0 < n) (ha : n * n ≤ a.size)
    (hp : p.entries.size = n + 1) (htol : 0 ≤ tol) :
    ∃ e B, decompose Cells.array n p tol a = .ok e ∧ e.state.size = a.size ∧
      IsGreatest {x | ∃ k < n * n, |cellAt a k| = x} B ∧
      (e.stopped = none →
        (∀ i < n, ∀ k < i, |cellAt e.state (i * n + k)| ≤ 1) ∧
        ∀ i j, i ≤ j → j < n → |cellAt e.state (i * n + j)| ≤ 2 ^ i * B) := by
  obtain ⟨m, hm, hmax⟩ := Finset.exists_max_image (Finset.range (n * n)) (fun k => |cellAt a k|)
    ⟨0, Finset.mem_range.mpr (Nat.mul_pos hn hn)⟩
  obtain ⟨e, π, k, he, hkept, hend⟩ := decompose_ok (Cells.array_lawful ha) tol (.refl _ a) hp
    fun _ _ _ _ => rfl
  refine ⟨e, |cellAt a m|, he, hkept.size, ⟨⟨m, Finset.mem_range.mp hm, rfl⟩, ?_⟩, fun hdone => ?_⟩
  · rintro x ⟨k, hk, rfl⟩
    exact hmax k (Finset.mem_range.mpr hk)
  · have hbounds := hend.table.restrained htol (B := |cellAt a m|) fun r hr j hj =>
      hmax _ (Finset.mem_range.mpr (place_lt hr hj))
    rw [hdone, Option.getD_none] at hbounds
    constructor
    · intro i hi k hk
      exact hbounds.multiplier i hi k (by omega)
    · intro i j hij hj
      have hentry := hbounds.entry i (by omega) j hj (by omega)
      rwa [Nat.min_eq_left (by omega)] at hentry

/-- The bounds are attained: every multiplier is minus one, and the last column doubles twice. -/
theorem decompose_growth_doubled :
    ∃ e B, decompose Cells.array 3 ⟨#[7, 7, 7, 7]⟩ (0 : ℚ) #[1, 0, 1, -1, 1, 1, -1, -1, 1] = .ok e ∧
      e.stopped = none ∧ e.state = #[1, 0, 1, -1, 1, 2, -1, -1, 4] ∧
      IsGreatest {x | ∃ k < 3 * 3, |cellAt #[1, 0, 1, -1, 1, 1, -1, -1, (1 : ℚ)] k| = x} B ∧
      |cellAt e.state (2 * 3 + 1)| ≤ 1 ∧ |cellAt e.state (2 * 3 + 2)| ≤ 2 ^ 2 * B := by
  obtain ⟨e, B, he, -, hB, hbounds⟩ := decompose_growth (n := 3)
    (a := #[1, 0, 1, -1, 1, 1, -1, -1, (1 : ℚ)]) (p := ⟨#[7, 7, 7, 7]⟩) (by decide) (by decide)
    (by decide) (le_refl 0)
  have hrun : (decompose Cells.array 3 ⟨#[7, 7, 7, 7]⟩ (0 : ℚ) #[1, 0, 1, -1, 1, 1, -1, -1, 1]).map
      (fun e => (e.stopped, e.state)) = .ok (none, #[1, 0, 1, -1, 1, 2, -1, -1, 4]) := by
    decide +kernel
  rw [he] at hrun
  obtain ⟨hdone, hstate⟩ := Prod.mk.inj (Except.ok.inj hrun)
  obtain ⟨hmultiplier, hentry⟩ := hbounds hdone
  exact ⟨e, B, he, hdone, hstate, hB, hmultiplier 2 (by decide) 1 (by decide),
    hentry 2 2 (by decide) (by decide)⟩

end PivotedLU.Kernel
