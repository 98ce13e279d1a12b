import PivotedLU.Proofs.Elimination.Pivots
import PivotedLU.Proofs.Elimination.Runs

/-!
# Rows in their final order

Elimination of the rows in the order in which a run left them exchanges nothing, and its tables are
those of the run with the exchanges that are still to come already made. Each row is computed from
itself and the pivot rows only, and among candidates of one magnitude the first is kept.
-/

namespace PivotedLU.Kernel

variable {α : Type} [Scalar α] {n i c k : Nat} {tol : α} {A B M N : Nat → Nat → α}
  {π τ : Equiv.Perm (Fin n)}

open Scalar (less atMost magnitude)

/-! ## Pivots that are in place -/

theorem foldl_scan_of_not_less (column : Nat → α) {rows : List Nat} {best : Pivot α}
    (h : ∀ r ∈ rows, less best.size (magnitude (column r)) = false) :
    rows.foldl (scan column) best = best := by
  induction rows with
  | nil => rfl
  | cons r rows ih =>
      have hr : scan column best r = best := by simp [scan, h r]
      rw [List.foldl_cons, hr]
      exact ih fun r hr => h r (List.mem_cons_of_mem _ hr)

/-- A first entry above zero that no entry below beats is the pivot. -/
theorem bestPivot_of_first (column : Nat → α) (hi : i < n)
    (hpos : less 0 (magnitude (column i)) = true)
    (hbest : ∀ r, i ≤ r → r < n → less (magnitude (column i)) (magnitude (column r)) = false) :
    bestPivot n i column = ⟨magnitude (column i), i⟩ := by
  obtain ⟨d, hd⟩ : ∃ d, n - i = d + 1 := ⟨n - i - 1, by omega⟩
  have hfirst : scan column ⟨0, i⟩ i = ⟨magnitude (column i), i⟩ := by simp [scan, hpos]
  rw [bestPivot, hd, List.range'_succ, List.foldl_cons, hfirst]
  apply foldl_scan_of_not_less
  intro r hr
  have hr := List.mem_range'_1.mp hr
  exact hbest r (by omega) (by omega)

/-! ## Permutations of the rows that are left -/

omit [Scalar α] in
theorem le_perm_iff (hτ : ∀ r : Fin n, r < c → τ r = r) (r : Fin n) : c ≤ τ r ↔ c ≤ r := by
  rw [← not_lt, ← not_lt, not_iff_not]
  constructor
  · intro h
    rwa [← τ.injective (hτ (τ r) h)]
  · intro h
    rwa [hτ r h]

/-- Clearing a column commutes with a permutation of the rows below it. -/
theorem cleared_perm {i : Fin n} (hτ : ∀ r : Fin n, r < (i + 1 : Nat) → τ r = r)
    (hN : ∀ r j : Fin n, N r j = M (τ r) j) (r j : Fin n) :
    cleared i N r j = cleared i M (τ r) j := by
  have hside : (τ r : Nat) ≤ i ↔ (r : Nat) ≤ i := by
    have hle := le_perm_iff hτ r
    omega
  have hdiagonal : τ i = i := hτ i (Nat.lt_succ_self _)
  simp only [cleared, hside, hN, hdiagonal]

variable [Scalar.Ordered α]

/-- Where a permutation has brought the row of the pivot to the top, the pivot is in place. -/
theorem bestPivot_perm {i t : Fin n} (column column' : Nat → α) (htol : atMost 0 tol = true)
    (ht : (bestPivot n i column).row = t) (hpivot : atMost (bestPivot n i column).size tol = false)
    (hτ : ∀ r : Fin n, r < i → τ r = r) (htop : τ i = t)
    (hcolumn : ∀ r : Fin n, column' r = column (τ r)) :
    bestPivot n i column' = ⟨(bestPivot n i column).size, i⟩ := by
  have hsize : (bestPivot n i column).size = magnitude (column' i) := by
    rw [size_bestPivot column i.isLt htol hpivot, ht, hcolumn, htop]
  have hpos := Scalar.Ordered.less_of_atMost_of_less htol (less_size_bestPivot column htol hpivot)
  rw [hsize] at hpos ⊢
  apply bestPivot_of_first column' i.isLt hpos
  intro r hir hr
  rw [← hsize, hcolumn ⟨r, hr⟩]
  exact not_less_bestPivot column ((le_perm_iff hτ ⟨r, hr⟩).mpr hir) (Fin.isLt _)

omit [Scalar.Ordered α] in
theorem Eliminated.column_in_place {i : Fin n} {size : α} (h : Eliminated n tol B i M 1 0)
    (hbest : bestPivot n i (fun r => M r i) = ⟨size, i⟩) (hpivot : atMost size tol = false)
    (hN : ∀ r < n, ∀ j < n, N r j = cleared i M r j) : Eliminated n tol B (i + 1) N 1 0 := by
  have hcolumn : ∀ r < n, ∀ j < n, N r j = cleared i (fun r => M (Equiv.swap (i : Nat) i r)) r j := by
    simpa using hN
  have hnext := Eliminated.column i i h (by rw [hbest]) (by rw [hbest, hpivot]) hcolumn
  rwa [Equiv.swap_self, ← Equiv.Perm.one_def, mul_one, if_pos rfl] at hnext

/-- The table after `c` columns, permuted below them, is one of a run without exchanges from the rows
that it came from. -/
theorem Eliminated.reordered (htol : atMost 0 tol = true) (h : Eliminated n tol A c M π k)
    (hτ : ∀ r : Fin n, r < c → τ r = r) (hB : ∀ r j : Fin n, B r j = A (π (τ r)) j)
    (hN : ∀ r j : Fin n, N r j = M (τ r) j) : Eliminated n tol B c N 1 0 := by
  induction h generalizing τ N with
  | start hM =>
      refine .start fun r hr j hj => ?_
      rw [hN ⟨r, hr⟩ ⟨j, hj⟩, hB ⟨r, hr⟩ ⟨j, hj⟩, hM _ (Fin.isLt _) j hj]
      rfl
  | @column M M' π k i t h ht hpivot hM ih =>
      have hit : (i : Nat) ≤ t := le_of_row_bestPivot i.isLt ht
      -- Before column `i` its own exchange was still to come as well.
      obtain ⟨σ, hσ⟩ : ∃ σ : Equiv.Perm (Fin n), ∀ r, σ r = Equiv.swap i t (τ r) :=
        ⟨Equiv.swap i t * τ, fun _ => rfl⟩
      have hfix : ∀ r : Fin n, r < (i : Nat) → σ r = r := by
        intro r hr
        rw [hσ, hτ r (by omega)]
        exact Equiv.swap_apply_of_ne_of_ne (by omega) (by omega)
      have htop : σ i = t := by rw [hσ, hτ i (Nat.lt_succ_self _), Equiv.swap_apply_left]
      have hrow : ∀ r j : Fin n, M (RowOrder.rowAt σ r) j = M (σ r) j := by simp
      have hexchanged : ∀ r j : Fin n, M (RowOrder.rowAt σ r) j =
          M (Equiv.swap (i : Nat) t (τ r)) j := by
        intro r j
        rw [hrow, hσ, Fin.val_injective.map_swap]
      have hbefore : Eliminated n tol B i (fun r => M (RowOrder.rowAt σ r)) 1 0 := by
        apply ih hfix _ hrow
        intro r j
        rw [hB, hσ, Equiv.Perm.mul_apply]
      have hbest := bestPivot_perm (fun r => M r i) (fun r => M (RowOrder.rowAt σ r) i) htol ht hpivot
        hfix htop fun r => hrow r i
      apply hbefore.column_in_place hbest hpivot
      intro r hr j hj
      rw [hN ⟨r, hr⟩ ⟨j, hj⟩, hM _ (Fin.isLt _) j hj]
      exact (cleared_perm hτ hexchanged ⟨r, hr⟩ ⟨j, hj⟩).symm

/-! ## Factoring again -/

/-- When a block of numbers is factored, the block with its rows in the recorded order is factored to
the same cells, and the record says that nothing was exchanged. -/
theorem decompose_reordered {a b : Array Float} {p q : RowOrder} {tol : Float}
    {e : Elimination (Array Float)} (ha : a.size = n * n) (hsize : a.size < 2 ^ 63)
    (hp : p.entries.size = n + 1) (hq : q.entries.size = n + 1) (htol : 0 ≤ tol)
    (he : decompose Cells.array n p tol a = .ok e) (hdone : e.stopped = none) (hb : b.size = n * n)
    (hrows : ∀ i < n, ∀ r, e.order.entry i = .ok r → ∀ j < n,
      b[i * n + j]? = a[r.toNatClampNeg * n + j]?) :
    decompose Cells.array n q tol b = .ok ⟨none, e.state, RowOrder.identity n⟩ ∧
      (RowOrder.identity n).swaps = .ok 0 := by
  have htol : atMost 0 tol = true := decide_eq_true htol
  have hlt : n < 2 ^ 63 := Nat.lt_of_le_of_lt (Nat.le_mul_self n) (ha ▸ hsize)
  obtain ⟨e₁, π, k, he₁, hkept, hend⟩ := decompose_ok (Cells.array_lawful ha.ge) tol (.refl _ a) hp
    fun _ _ _ _ => rfl
  obtain rfl : e₁ = e := Except.ok.inj (he₁.symm.trans he)
  obtain ⟨e', π', k', he', hkept', hend'⟩ := decompose_ok (Cells.array_lawful hb.ge) tol (.refl _ b)
    hq fun _ _ _ _ => rfl
  have hfrom : ∀ r j : Fin n, cellAt b (r * n + j) = cellAt a (π r * n + j) := by
    intro r j
    have hrow := hrows r r.isLt _ (hend.order.entry r) j j.isLt
    rw [Int64.toNatClampNeg_ofNat_of_lt (Nat.lt_trans (π r).isLt hlt)] at hrow
    simp [cellAt, hrow]
  have htable := hend.table
  rw [hdone, Option.getD_none] at htable
  have hagain : Ended n tol (fun r j => cellAt b (r * n + j)) cellAt
      ⟨none, e₁.state, RowOrder.identity n⟩ 1 0 :=
    ⟨RowOrder.records_identity n, htable.reordered (τ := 1) htol (fun _ _ => rfl) hfrom fun _ _ => rfl,
      by simp⟩
  obtain rfl := hend'.eq_of_size hagain (hkept'.size.trans hb) (hkept.size.trans ha)
  exact ⟨he', (RowOrder.records_identity n).swaps⟩

/-- Both rows of largest magnitude in the first column have magnitude two, and all rows move. -/
theorem decompose_reordered_tie :
    ∃ e, decompose Cells.array 3 ⟨#[7, 7, 7, 7]⟩ (0.25 : Float) #[1, 1, 1, -2, 0, 4, 2, 2, 3] = .ok e ∧
      e.order = ⟨#[1, 2, 0, 5]⟩ ∧
      decompose Cells.array 3 ⟨#[0, 0, 0, 0]⟩ (0.25 : Float) #[-2, 0, 4, 2, 2, 3, 1, 1, 1] =
        .ok ⟨none, e.state, RowOrder.identity 3⟩ := by
  have hrun : (decompose Cells.array 3 ⟨#[7, 7, 7, 7]⟩ (0.25 : Float)
      #[1, 1, 1, -2, 0, 4, 2, 2, 3]).map (fun e => (e.stopped, e.order)) =
        .ok (none, ⟨#[1, 2, 0, 5]⟩) := by decide +kernel
  cases he : decompose Cells.array 3 ⟨#[7, 7, 7, 7]⟩ (0.25 : Float) #[1, 1, 1, -2, 0, 4, 2, 2, 3] with
  | error fault =>
      rw [he] at hrun
      cases hrun
  | ok e =>
      rw [he] at hrun
      obtain ⟨hdone, horder⟩ := Prod.mk.inj (Except.ok.inj hrun)
      refine ⟨e, rfl, horder, (decompose_reordered rfl (by decide) (by decide) (by decide) (by decide)
        he hdone rfl ?_).1⟩
      rw [horder]
      intro i hi r hr
      obtain rfl | rfl | rfl : i = 0 ∨ i = 1 ∨ i = 2 := by omega
      · obtain rfl : 1 = r := Except.ok.inj hr
        decide
      · obtain rfl : 2 = r := Except.ok.inj hr
        decide
      · obtain rfl : 0 = r := Except.ok.inj hr
        decide

end PivotedLU.Kernel
