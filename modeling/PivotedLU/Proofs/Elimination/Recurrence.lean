import Mathlib.Data.Fin.Basic
import PivotedLU.Proofs.Accumulation
import PivotedLU.Proofs.Elimination.Columns

/-!
# The recurrence of elimination

Elimination updates all rows below a pivot at once. The table it leaves is nevertheless the one
that the row by row recurrence of Doolittle defines from its own entries, also when it stopped
early. No law of arithmetic is used.
-/

namespace PivotedLU.Kernel

variable {α : Type} [Scalar α] {n : Nat} {tol : α} {A M N : Nat → Nat → α}

/-- Entry `(r, j)` of a table whose row `r` has gone through `m` columns, computed from the entry
`v` it started from and from the table itself. -/
def recurrence (m : Nat) (v : α) (M : Nat → Nat → α) (r j : Nat) : α :=
  if j < m then lessProducts (M r) (fun k => M k j) 0 (min j m) v / M j j
  else lessProducts (M r) (fun k => M k j) 0 (min j m) v

theorem recurrence_of_lt {m r j : Nat} (h : j < m) (v : α) (M : Nat → Nat → α) :
    recurrence m v M r j = lessProducts (M r) (fun k => M k j) 0 j v / M j j := by
  simp [recurrence, h, Nat.min_eq_left (Nat.le_of_lt h)]

theorem recurrence_of_le {m r j : Nat} (h : m ≤ j) (v : α) (M : Nat → Nat → α) :
    recurrence m v M r j = lessProducts (M r) (fun k => M k j) 0 m v := by
  simp [recurrence, Nat.not_lt.mpr h, Nat.min_eq_right h]

/-- The recurrence reads the row itself and the rows before `m`. -/
theorem recurrence_congr {m r r' j : Nat} (hj : j < n) (v : α) (hrow : ∀ c < n, M r c = N r' c)
    (hrows : ∀ k < m, ∀ c < n, M k c = N k c) : recurrence m v M r j = recurrence m v N r' j := by
  have hproducts : lessProducts (M r) (fun k => M k j) 0 (min j m) v =
      lessProducts (N r') (fun k => N k j) 0 (min j m) v :=
    lessProducts_congr (fun k _ hk => ⟨hrow k (by omega), hrows k (by omega) j hj⟩) v
  unfold recurrence
  split
  next hjm => rw [hproducts, hrows j hjm j hj]
  next => exact hproducts

/-- An exchange of rows at and below `i` moves none of them past the columns that are done. -/
theorem min_swap {i t : Nat} (hit : i ≤ t) (r : Nat) : min (Equiv.swap i t r) i = min r i := by
  rw [Equiv.swap_apply_def]
  split_ifs <;> omega

/-- Rows at and below `i` may be exchanged. -/
theorem recurrence_swap {i t r j : Nat} (hit : i ≤ t) (hj : j < n) (v : α)
    (h : M (Equiv.swap i t r) j = recurrence (min (Equiv.swap i t r) i) v M (Equiv.swap i t r) j) :
    M (Equiv.swap i t r) j = recurrence (min r i) v (fun r => M (Equiv.swap i t r)) r j := by
  rw [h, min_swap hit]
  refine recurrence_congr hj v (fun _ _ => rfl) fun k hk c _ => ?_
  rw [Equiv.swap_apply_of_ne_of_ne (by omega) (by omega)]

/-- A cleared column takes every row below `i` one column further. -/
theorem recurrence_cleared {i r j : Nat} (hi : i < n) (hr : r < n) (hj : j < n) (v : α)
    (hM : ∀ r < n, ∀ c < n, M r c = cleared i N r c) (h : N r j = recurrence (min r i) v N r j) :
    M r j = recurrence (min r (i + 1)) v M r j := by
  have hrows : ∀ k ≤ i, ∀ c < n, M k c = N k c := fun k hk c hc => by
    rw [hM k (by omega) c hc, cleared_of_le hk]
  rcases Nat.lt_or_ge i r with hir | hri
  · rw [Nat.min_eq_right (Nat.le_of_lt hir)] at h
    rw [Nat.min_eq_right hir]
    have hproducts : ∀ m ≤ i, lessProducts (M r) (fun k => M k j) 0 m v =
        lessProducts (N r) (fun k => N k j) 0 m v := fun m hm =>
      lessProducts_congr (fun k _ hk => ⟨by rw [hM r hr k (by omega), cleared_of_lt (by omega)],
        hrows k (by omega) j hj⟩) v
    rcases Nat.lt_trichotomy j i with hji | rfl | hij
    · -- A multiplier of an earlier column stays.
      rw [recurrence_of_lt hji] at h
      rw [recurrence_of_lt (by omega), hproducts j (by omega), hrows j (by omega) j hj,
        hM r hr j hj, cleared_of_lt hji, h]
    · -- The new multiplier.
      rw [recurrence_of_le (Nat.le_refl _)] at h
      rw [recurrence_of_lt (by omega), hproducts j (Nat.le_refl _), hrows j (Nat.le_refl _) j hj,
        hM r hr j hj, cleared_self hir, h]
    · -- One more product is taken away: that of the new multiplier with the pivot row.
      rw [recurrence_of_le (by omega)] at h
      rw [recurrence_of_le (by omega), lessProducts_succ (Nat.zero_le _), hproducts i (Nat.le_refl _),
        ← h, hrows i (Nat.le_refl _) j hj, hM r hr j hj, hM r hr i hi, cleared_of_gt hir hij,
        cleared_self hir]
  · -- Row `r` is above the cleared part.
    rw [Nat.min_eq_left hri] at h
    rw [Nat.min_eq_left (by omega), hrows r hri j hj, h]
    exact recurrence_congr hj v (fun c hc => (hrows r hri c hc).symm)
      fun k hk c hc => (hrows k (by omega) c hc).symm

/-- Every table of a run satisfies the recurrence. -/
theorem Eliminated.recurrence {c k : Nat} {π : Equiv.Perm (Fin n)} (h : Eliminated n tol A c M π k)
    (r j : Fin n) : M r j = Kernel.recurrence (min r c) (A (π r) j) M r j := by
  induction h generalizing r with
  | start hM => simp [Kernel.recurrence, hM r r.isLt j j.isLt]
  | @column M M' π k i t h ht hpivot hM ih =>
      have hit : (i : Nat) ≤ t := le_of_row_bestPivot i.isLt ht
      have hval : ((Equiv.swap i t r : Fin n) : Nat) = Equiv.swap (i : Nat) t r :=
        Fin.val_injective.map_swap i t r
      refine recurrence_cleared i.isLt r.isLt j.isLt _ hM (recurrence_swap hit j.isLt _ ?_)
      rw [← hval]
      exact ih (Equiv.swap i t r)

/-- Factoring a block in place ends with a table that satisfies the recurrence of Doolittle for the
rows of the original block, up to the column where it stopped; the cells after the block stay. -/
theorem decompose_recurrence {a : Array α} {p : RowOrder} (tol : α) (ha : n * n ≤ a.size)
    (hp : p.entries.size = n + 1) :
    ∃ e, decompose Cells.array n p tol a = .ok e ∧ (∀ c, e.stopped = some c → c < n) ∧
      (∀ r < n, ∃ q < n, e.order.entry r = .ok (Int64.ofNat q) ∧ ∀ j < n,
        let c := e.stopped.getD n
        let v := (List.range (min r (min j c))).foldl
          (fun v k => v - cellAt e.state (r * n + k) * cellAt e.state (k * n + j)) (cellAt a (q * n + j))
        cellAt e.state (r * n + j) = if j < min r c then v / cellAt e.state (j * n + j) else v) ∧
      e.state.size = a.size ∧ ∀ k, n * n ≤ k → e.state[k]? = a[k]? := by
  obtain ⟨e, π, k, he, hframe, hend⟩ := decompose_ok (Cells.array_lawful ha) tol
    (ChangedOnly.refl _ a) hp fun r _ c _ => rfl
  refine ⟨e, he, fun c hc => (hend.stuck c hc).1, fun r hr => ?_, hframe.size,
    fun k hk => hframe.cell k (Nat.not_lt.mpr hk)⟩
  refine ⟨π ⟨r, hr⟩, (π ⟨r, hr⟩).isLt, hend.order.entry ⟨r, hr⟩, fun j hj => ?_⟩
  have h := hend.table.recurrence ⟨r, hr⟩ ⟨j, hj⟩
  simpa [recurrence, lessProducts, List.range_eq_range', Nat.min_left_comm] using h

theorem decompose_recurrence_two_rows :
    (2 * 2 ≤ (#[0, 1, 2, 0 / 0, 9] : Array Float).size ∧ (#[7, 7, 7] : Array Int64).size = 2 + 1) ∧
    ∃ e, decompose Cells.array 2 ⟨#[7, 7, 7]⟩ (0 : Float) #[0, 1, 2, 0 / 0, 9] = .ok e ∧
      (∀ r < 2, ∃ q < 2, e.order.entry r = .ok (Int64.ofNat q) ∧ ∀ j < 2,
        let c := e.stopped.getD 2
        let v := (List.range (min r (min j c))).foldl
          (fun v k => v - cellAt e.state (r * 2 + k) * cellAt e.state (k * 2 + j))
          (cellAt #[0, 1, 2, 0 / 0, 9] (q * 2 + j))
        cellAt e.state (r * 2 + j) = if j < min r c then v / cellAt e.state (j * 2 + j) else v) ∧
      e.state.size = 5 ∧ e.state[4]? = some 9 := by
  obtain ⟨e, he, -, hrows, hsize, htail⟩ := decompose_recurrence (n := 2)
    (a := #[0, 1, 2, 0 / 0, 9]) (p := ⟨#[7, 7, 7]⟩) (0 : Float) (by decide) (by decide)
  exact ⟨⟨by decide, by decide⟩, e, he, hrows, hsize, htail 4 (by decide)⟩

end PivotedLU.Kernel
