import Mathlib.GroupTheory.Perm.Sign
import PivotedLU.Proofs.Elimination.Columns

/-!
# Runs of elimination

A run makes at most one exchange in each column, so the number of exchanges tells the sign of the
permutation. Runs from one table cannot differ: neither in the tables they pass through nor in the
column where they end. No law of arithmetic is used.
-/

namespace PivotedLU.Kernel

variable {σ τ α : Type} [Scalar α] {n c k k' : Nat} {tol : α} {A M M' : Nat → Nat → α}
  {π π' : Equiv.Perm (Fin n)}

/-! ## Exchanges -/

theorem Eliminated.exchanges_le (h : Eliminated n tol A c M π k) : k ≤ c := by
  induction h with
  | start _ => exact Nat.le_refl 0
  | column i t _ _ _ _ ih => split <;> omega

theorem Eliminated.sign_eq (h : Eliminated n tol A c M π k) :
    (Equiv.Perm.sign π : ℤ) = (-1) ^ k := by
  induction h with
  | start _ => simp
  | column i t _ _ _ _ ih =>
      rw [Equiv.Perm.sign_mul, Units.val_mul, ih, Equiv.Perm.sign_swap']
      split_ifs with hit hti hti
      · exact mul_one _
      · exact absurd hit.symm hti
      · exact absurd hti.symm hit
      · rw [Units.val_neg, Units.val_one, pow_succ]

/-! ## Uniqueness -/

theorem bestPivot_congr {i : Nat} {column column' : Nat → α} (h : ∀ r < n, column r = column' r) :
    bestPivot n i column = bestPivot n i column' := by
  refine List.foldl_ext _ _ _ fun best r hr => ?_
  have hr := List.mem_range'_1.mp hr
  rw [scan, scan, h r (by omega)]

theorem swap_lt {i t r : Nat} (hi : i < n) (ht : t < n) (hr : r < n) : Equiv.swap i t r < n := by
  rw [Equiv.swap_apply_def]
  split_ifs <;> assumption

theorem Eliminated.unique (h : Eliminated n tol A c M π k) (h' : Eliminated n tol A c M' π' k') :
    (∀ r < n, ∀ j < n, M r j = M' r j) ∧ π = π' ∧ k = k' := by
  induction h generalizing M' π' k' with
  | start hM =>
      cases h' with
      | start hM' => exact ⟨fun r hr j hj => (hM r hr j hj).trans (hM' r hr j hj).symm, rfl, rfl⟩
  | @column M N π k i t h ht _ hN ih =>
      -- The other run has passed as many columns, so its last one is column `i` as well.
      generalize hc : (i : Nat) + 1 = c at h'
      cases h' with
      | start _ => omega
      | @column M' _ π' k' i' t' h' ht' _ hN' =>
          obtain rfl : i = i' := Fin.ext (by omega)
          obtain ⟨hM, rfl, rfl⟩ := ih h'
          obtain rfl : t = t' := by
            refine Fin.ext ?_
            rw [← ht, ← ht', bestPivot_congr fun r hr => hM r hr i i.isLt]
          refine ⟨fun r hr j hj => ?_, rfl, rfl⟩
          have hswap : ∀ r < n, ∀ j < n, M (Equiv.swap (i : Nat) t r) j =
              M' (Equiv.swap (i : Nat) t r) j := fun r hr => hM _ (swap_lt i.isLt t.isLt hr)
          rw [hN r hr j hj, hN' r hr j hj]
          exact cleared_congr i.isLt hj (hswap r hr) (hswap i i.isLt)

theorem Eliminated.columns_le (h : Eliminated n tol A c M π k) : c ≤ n := by
  cases h with
  | start _ => exact Nat.zero_le n
  | column i => exact i.isLt

/-- A run passed every column before its end, and found a pivot there. -/
theorem Eliminated.passed (h : Eliminated n tol A c M π k) {i : Nat} (hi : i < c) :
    ∃ M π k, Eliminated n tol A i M π k ∧
      Scalar.atMost (bestPivot n i fun r => M r i).size tol = false := by
  induction h with
  | start _ => omega
  | column j t h _ hpivot _ ih =>
      rcases Nat.lt_succ_iff_lt_or_eq.mp hi with hij | rfl
      · exact ih hij
      · exact ⟨_, _, _, h, hpivot⟩

variable {get : σ → Nat → α} {get' : τ → Nat → α} {e : Elimination σ} {e' : Elimination τ}

theorem Ended.stopped_eq (h : Ended n tol A get e π k) :
    e.stopped = if e.stopped.getD n < n then some (e.stopped.getD n) else none := by
  cases hstopped : e.stopped with
  | none => simp
  | some c => simp [(h.stuck c hstopped).1]

/-- A run that has ended has passed as many columns as any other one. -/
theorem Ended.le_stopped (h : Ended n tol A get e π k) (h' : Eliminated n tol A c M π' k') :
    c ≤ e.stopped.getD n := by
  by_contra hlt
  have hlt : e.stopped.getD n < c := Nat.not_le.mp hlt
  -- Otherwise the longer run found a pivot where the other one, with the same table, found none.
  obtain ⟨N, π₁, k₁, hN, hpivot⟩ := h'.passed hlt
  obtain ⟨hn, hstuck⟩ := h.stuck _
    (h.stopped_eq.trans (if_pos (Nat.lt_of_lt_of_le hlt h'.columns_le)))
  obtain ⟨htable, -, -⟩ := h.table.unique hN
  rw [bestPivot_congr fun r hr => htable r hr _ hn, hpivot] at hstuck
  cases hstuck

/-- Two runs from the same table end alike, wherever their cells are. -/
theorem Ended.unique (h : Ended n tol A get e π k) (h' : Ended n tol A get' e' π' k') :
    e.stopped = e'.stopped ∧ e.order = e'.order ∧
      ∀ r < n, ∀ j < n, get e.state (r * n + j) = get' e'.state (r * n + j) := by
  have hend : e.stopped.getD n = e'.stopped.getD n :=
    Nat.le_antisymm (h'.le_stopped h.table) (h.le_stopped h'.table)
  obtain ⟨htable, rfl, rfl⟩ := h.table.unique (hend ▸ h'.table)
  refine ⟨?_, h.order.unique h'.order, htable⟩
  rw [h.stopped_eq, hend]
  exact h'.stopped_eq.symm

theorem Ended.eq_of_size {e e' : Elimination (Array α)} (h : Ended n tol A cellAt e π k)
    (h' : Ended n tol A cellAt e' π' k') (hsize : e.state.size = n * n)
    (hsize' : e'.state.size = n * n) : e = e' := by
  obtain ⟨hstopped, horder, hcells⟩ := h.unique h'
  have hstate : e.state = e'.state := by
    apply eq_of_cellAt (hsize.trans hsize'.symm)
    intro k hk
    obtain ⟨i, hi, j, hj, rfl⟩ := exists_place (hsize ▸ hk)
    exact hcells i hi j hj
  cases e
  cases e'
  simp only [Elimination.mk.injEq]
  exact ⟨hstopped, hstate, horder⟩

/-! ## Tolerances -/

/-- A run is also one for every tolerance that refuses less. -/
theorem Eliminated.of_tolerance {tol' : α}
    (htol : ∀ x, Scalar.atMost x tol' = true → Scalar.atMost x tol = true)
    (h : Eliminated n tol A c M π k) : Eliminated n tol' A c M π k := by
  induction h with
  | start hM => exact .start hM
  | column i t _ ht hpivot hM ih =>
      refine .column i t ih ht (Bool.eq_false_iff.mpr fun hle => ?_) hM
      exact Bool.eq_false_iff.mp hpivot (htol _ hle)

/-- The end of a run depends on the tolerance only through the comparisons with it. -/
theorem Ended.of_tolerance {tol' : α} (htol : ∀ x, Scalar.atMost x tol = Scalar.atMost x tol')
    (h : Ended n tol A get e π k) : Ended n tol' A get e π k where
  order := h.order
  table := h.table.of_tolerance fun x hx => (htol x).trans hx
  stuck c hc := by
    rw [← htol]
    exact h.stuck c hc

end PivotedLU.Kernel
