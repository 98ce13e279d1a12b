import PivotedLU.Proofs.Elimination.Columns
import PivotedLU.Proofs.Order

/-!
# Pivots and the column without one

The best candidate of a column is not beaten by any entry of it. So the pivots that elimination uses
are above the tolerance, and the column at which it stopped can be read off the table it left.
-/

namespace PivotedLU.Kernel

variable {σ α : Type} [Scalar α] [Scalar.Ordered α] {n i c : Nat} {tol : α}

open Scalar (less atMost magnitude)

/-! ## The best candidate -/

theorem not_less_scan (column : Nat → α) {best : Pivot α} (k : Nat) {x : α}
    (h : less best.size x = false) : less (scan column best k).size x = false := by
  unfold scan
  split
  next hbeaten =>
    refine Bool.eq_false_iff.mpr fun hx => ?_
    exact Bool.eq_false_iff.mp h (Scalar.Ordered.less_trans hbeaten hx)
  next => exact h

theorem not_less_foldl_scan (column : Nat → α) (rows : List Nat) {best : Pivot α} {x : α}
    (h : less best.size x = false) : less (rows.foldl (scan column) best).size x = false := by
  induction rows generalizing best with
  | nil => exact h
  | cons k rows ih => exact ih (not_less_scan column k h)

theorem not_less_scan_self (column : Nat → α) (best : Pivot α) (k : Nat) :
    less (scan column best k).size (magnitude (column k)) = false := by
  unfold scan
  split
  next => exact Scalar.Ordered.less_irrefl _
  next h => exact Bool.eq_false_iff.mpr h

theorem not_less_of_mem (column : Nat → α) {rows : List Nat} {k : Nat} (hk : k ∈ rows)
    (best : Pivot α) : less (rows.foldl (scan column) best).size (magnitude (column k)) = false := by
  induction rows generalizing best with
  | nil => cases hk
  | cons r rows ih =>
      rcases List.mem_cons.mp hk with rfl | hk
      · exact not_less_foldl_scan column rows (not_less_scan_self column best k)
      · exact ih hk _

/-- No entry on or below the diagonal beats the best candidate. -/
theorem not_less_bestPivot (column : Nat → α) {k : Nat} (hik : i ≤ k) (hk : k < n) :
    less (bestPivot n i column).size (magnitude (column k)) = false :=
  not_less_of_mem column (List.mem_range'_1.mpr ⟨hik, by omega⟩) _

/-- The best candidate is zero or has beaten another one, so it is no NaN. -/
theorem atMost_self_bestPivot (column : Nat → α) (hzero : atMost (0 : α) 0 = true) :
    atMost (bestPivot n i column).size (bestPivot n i column).size = true := by
  refine List.foldlRecOn (motive := fun best : Pivot α => atMost best.size best.size = true)
    _ _ hzero fun best hbest k _ => ?_
  unfold scan
  split
  next hbeaten => exact Scalar.Ordered.self_of_less hbeaten
  next => exact hbest

/-- A candidate that is not refused is above the tolerance. -/
theorem less_size_bestPivot (column : Nat → α) (htol : atMost 0 tol = true)
    (h : atMost (bestPivot n i column).size tol = false) : less tol (bestPivot n i column).size = true := by
  obtain ⟨hzero, hself⟩ := Scalar.Ordered.self_of_atMost htol
  exact Scalar.Ordered.less_of_not_atMost (atMost_self_bestPivot column hzero) hself h

omit [Scalar.Ordered α] in
/-- A candidate that is not refused is the entry of its row. -/
theorem size_bestPivot (column : Nat → α) (hi : i < n) (htol : atMost 0 tol = true)
    (h : atMost (bestPivot n i column).size tol = false) :
    (bestPivot n i column).size = magnitude (column (bestPivot n i column).row) := by
  obtain ⟨-, -, hsize | hnone⟩ := bestPivot_cases hi column
  · exact hsize
  · rw [hnone] at h
    exact absurd htol (Bool.eq_false_iff.mp h)

theorem less_bestPivot (column : Nat → α) (hi : i < n) (htol : atMost 0 tol = true)
    (h : atMost (bestPivot n i column).size tol = false) :
    less tol (magnitude (column (bestPivot n i column).row)) = true := by
  rw [← size_bestPivot column hi htol h]
  exact less_size_bestPivot column htol h

/-! ## Pivots -/

variable {A M : Nat → Nat → α} {π : Equiv.Perm (Fin n)} {k : Nat}

/-- The pivots of the columns that are done are above the tolerance. -/
theorem Eliminated.less_pivot (htol : atMost 0 tol = true) (h : Eliminated n tol A c M π k)
    (j : Fin n) (hj : j < c) : less tol (magnitude (M j j)) = true := by
  induction h with
  | start _ => omega
  | @column M M' π k i t h ht hpivot hM ih =>
      rw [hM j j.isLt j j.isLt, cleared_of_le (by omega)]
      have hit : (i : Nat) ≤ t := le_of_row_bestPivot i.isLt ht
      rcases Nat.lt_succ_iff_lt_or_eq.mp hj with hji | hji
      · rw [Equiv.swap_apply_of_ne_of_ne (by omega) (by omega)]
        exact ih hji
      · rw [hji, Equiv.swap_apply_left, ← ht]
        exact less_bestPivot _ i.isLt htol hpivot

/-! ## The column without a pivot -/

/-- Whether column `i` of a table has an entry above `tol` on or below the diagonal. -/
def usable (n : Nat) (tol : α) (M : Nat → Nat → α) (i : Nat) : Bool :=
  (List.range' i (n - i)).any fun k => less tol (magnitude (M k i))

section

omit [Scalar.Ordered α]

variable {a : Reader σ α} {s : σ}

theorem hasPivot_eq (ha : ∀ r < n, a s (r * n + i) = .ok (M r i)) (tol : α) {k count : Nat}
    (hk : k + count = n) : hasPivot a n i tol s k count =
      .ok ((List.range' k count).any fun k => less tol (magnitude (M k i))) := by
  induction count generalizing k with
  | zero => rfl
  | succ count ih =>
      simp only [hasPivot, ha k (by omega), bind, Except.bind, List.range'_succ, List.any_cons]
      cases less tol (magnitude (M k i)) with
      | true => rfl
      | false => exact ih (by omega)

theorem degenerateFrom_eq (ha : ∀ r < n, ∀ c < n, a s (r * n + c) = .ok (M r c)) (tol : α)
    {count : Nat} (hi : i + count = n) : degenerateFrom a n tol s i count =
      .ok ((List.range' i count).find? fun i => !usable n tol M i) := by
  induction count generalizing i with
  | zero => rfl
  | succ count ih =>
      rw [degenerateFrom, hasPivot_eq (fun r hr => ha r hr i (by omega)) tol (by omega), ← usable,
        List.range'_succ, List.find?_cons]
      cases usable n tol M i with
      | true => exact ih (by omega)
      | false => rfl

theorem degenerateColumn_ok {cells : Cells σ α} {ok : σ → Prop} {get : σ → Nat → α}
    (hc : cells.Lawful (n * n) ok get) (hs : ok s) (tol : α) :
    ∃ column, degenerateColumn cells.read n tol s = .ok column :=
  ⟨_, degenerateFrom_eq (M := fun r c => get s (r * n + c))
    (fun _ hr _ hc' => hc.read hs (place_lt hr hc')) tol (Nat.zero_add n)⟩

theorem usable_of_less (hi : i < n) (h : less tol (magnitude (M i i)) = true) :
    usable n tol M i = true :=
  List.any_eq_true.mpr ⟨i, List.mem_range'_1.mpr ⟨Nat.le_refl i, by omega⟩, h⟩

end

/-- What stops elimination leaves no usable entry in the column. -/
theorem not_usable_of_atMost (h : atMost (bestPivot n c fun r => M r c).size tol = true) :
    usable n tol M c = false := by
  refine List.any_eq_false.mpr fun k hk hless => ?_
  have hk := List.mem_range'_1.mp hk
  have hbest := not_less_bestPivot (fun r => M r c) hk.1 (show k < n by omega)
  exact Bool.eq_false_iff.mp hbest (Scalar.Ordered.less_of_atMost_of_less h hless)

/-- The column at which elimination stopped is the one that is read off what it left. -/
theorem Ended.degenerateColumn_eq {a : Cells σ α} {ok : σ → Prop} {get : σ → Nat → α}
    {e : Elimination σ} (ha : a.Lawful (n * n) ok get) (hok : ok e.state)
    (htol : atMost 0 tol = true) (h : Ended n tol A get e π k) :
    degenerateColumn a.read n tol e.state = .ok e.stopped := by
  have hdone : ∀ i < e.stopped.getD n, i < n →
      usable n tol (fun r c => get e.state (r * n + c)) i = true :=
    fun i hi hin => usable_of_less hin (h.table.less_pivot htol ⟨i, hin⟩ hi)
  rw [degenerateColumn, degenerateFrom_eq (fun r hr c hc => ha.read hok (place_lt hr hc)) tol
    (Nat.zero_add n), ← List.range_eq_range']
  refine congrArg Except.ok ?_
  cases hstopped : e.stopped with
  | none =>
      rw [hstopped, Option.getD_none] at hdone
      refine List.find?_eq_none.mpr fun i hi => ?_
      have hi := List.mem_range.mp hi
      simp [hdone i hi hi]
  | some c =>
      rw [hstopped, Option.getD_some] at hdone
      obtain ⟨hc, hstuck⟩ := h.stuck c hstopped
      refine List.find?_range_eq_some.mpr ⟨?_, List.mem_range.mpr hc, fun i hi => ?_⟩
      · simpa using not_usable_of_atMost (M := fun r c => get e.state (r * n + c)) hstuck
      · simp [hdone i hi (Nat.lt_trans hi hc)]

end PivotedLU.Kernel
