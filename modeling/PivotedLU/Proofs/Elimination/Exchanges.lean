import PivotedLU.Proofs.Elimination.Runs
import PivotedLU.Proofs.Matrix.View

/-!
# The record of a run

A column exchanges its row with one further down, so the last column never exchanges, and the record
that a run leaves is a valid one. It counts the exchanges as far as their parity tells the sign of the
permutation. This holds at every end of a run, whatever the entries and the tolerance are.
-/

namespace PivotedLU.Kernel

variable {σ α : Type} [Scalar α] {n c k : Nat} {tol : α} {A M : Nat → Nat → α}
  {π : Equiv.Perm (Fin n)} {get : σ → Nat → α} {e : Elimination σ}

theorem Eliminated.exchanges_lt (h : Eliminated n tol A c M π k) (hn : 0 < n) : k < n := by
  cases h with
  | start _ => exact hn
  | @column M M' π k i t h ht _ _ =>
      have hk : k ≤ i := h.exchanges_le
      have hi : (i : Nat) < n := i.isLt
      have hle : (i : Nat) ≤ t := le_of_row_bestPivot i.isLt ht
      split
      next => omega
      next hne =>
        -- The row that was exchanged lies below row `i`, so column `i` is not the last one.
        have hlt : (i : Nat) < t := Nat.lt_of_le_of_ne hle fun heq => hne (Fin.ext heq.symm)
        have ht : (t : Nat) < n := t.isLt
        omega

theorem Eliminated.sign_eq_one_iff (h : Eliminated n tol A c M π k) :
    (Equiv.Perm.sign π : ℤ) = 1 ↔ k % 2 = 0 := by
  rw [h.sign_eq, ← Nat.even_iff]
  exact neg_one_pow_eq_one_iff_even (by decide)

theorem Eliminated.sign_eq_neg_one_iff (h : Eliminated n tol A c M π k) :
    (Equiv.Perm.sign π : ℤ) = -1 ↔ ¬ k % 2 = 0 := by
  rw [h.sign_eq, ← Nat.even_iff, Nat.not_even_iff_odd]
  exact neg_one_pow_eq_neg_one_iff_odd (by decide)

/-- The number of exchanges is that of a word, and less than the number of rows. -/
theorem Ended.swaps_bounds (h : Ended n tol A get e π k) (hfits : Fits n n) :
    ∃ w, e.order.swaps = .ok w ∧ 0 ≤ w.toInt ∧ w.toInt ≤ (n : Int) - 1 := by
  have hk : k < n := h.table.exchanges_lt hfits.rows_pos
  refine ⟨Int64.ofNat k, h.order.swaps, ?_⟩
  rw [Int64.toInt_ofNat_of_lt (Nat.lt_trans hk hfits.rows_lt)]
  omega

theorem Ended.isValid (h : Ended n tol A get e π k) (hfits : Fits n n) :
    e.order.isValid = .ok true := by
  have hk : k < n := h.table.exchanges_lt hfits.rows_pos
  have hdouble := hfits.double_lt
  exact h.order.isValid hfits.rows_pos (by omega)

theorem Ended.sign (h : Ended n tol A get e π k) (hfits : Fits n n) :
    e.order.sign = .ok (if k % 2 = 0 then 1 else (-1 : α)) :=
  h.order.sign (Nat.lt_trans (h.table.exchanges_lt hfits.rows_pos) hfits.rows_lt)

/-- Whatever the block holds, what the record held before and how the run ends, afterwards the record
is the valid one of a permutation, counts fewer exchanges than there are rows, and its sign is that of
the permutation. -/
theorem decompose_records_permutation {a : Array Float} {p : RowOrder} (tol : Float) (hn : 0 < n)
    (ha : n * n ≤ a.size) (hsize : a.size < 2 ^ 63) (hp : p.entries.size = n + 1) :
    ∃ e, decompose Cells.array n p tol a = .ok e ∧ e.order.isValid = .ok true ∧
      (∃ w, e.order.swaps = .ok w ∧ 0 ≤ w.toInt ∧ w.toInt ≤ (n : Int) - 1) ∧
      ∃ π : Equiv.Perm (Fin n), (∀ i : Fin n, e.order.entry i = .ok (Int64.ofNat (π i))) ∧
        (e.order.sign = .ok (1 : Float) ↔ (Equiv.Perm.sign π : ℤ) = 1) ∧
        (e.order.sign = .ok (-1 : Float) ↔ (Equiv.Perm.sign π : ℤ) = -1) := by
  have hfits : Fits n n := ⟨hn, hn, Nat.lt_of_le_of_lt ha hsize⟩
  obtain ⟨e, π, k, he, -, hend⟩ := decompose_ok (Cells.array_lawful ha) tol (.refl _ a) hp
    fun _ _ _ _ => rfl
  refine ⟨e, he, hend.isValid hfits, hend.swaps_bounds hfits, π, hend.order.entry, ?_⟩
  rw [hend.sign hfits, hend.table.sign_eq_one_iff, hend.table.sign_eq_neg_one_iff]
  have hne : (1 : Float) ≠ -1 := by decide
  by_cases heven : k % 2 = 0
  · simp [heven, hne]
  · simp [heven, hne.symm]

/-- A run that exchanges a row and then stops at a column that holds nothing but a NaN. -/
theorem decompose_records_permutation_stopped :
    (decompose Cells.array 3 ⟨#[7, 7, -7, 7]⟩ (0 : Float) #[1, 2, 3, 4, 0 / 0, 5, 2, 1, 0, 9]).map
      (fun e => (e.stopped, e.order)) = .ok (some 1, ⟨#[1, 0, 2, 4]⟩) ∧
    ∃ π : Equiv.Perm (Fin 3), (∀ i : Fin 3, (⟨#[1, 0, 2, 4]⟩ : RowOrder).entry i =
      .ok (Int64.ofNat (π i))) ∧ (Equiv.Perm.sign π : ℤ) = -1 := by
  obtain ⟨e, he, -, -, π, hrows, -, hodd⟩ := decompose_records_permutation (n := 3)
    (a := #[1, 2, 3, 4, 0 / 0, 5, 2, 1, 0, 9]) (p := ⟨#[7, 7, -7, 7]⟩) 0 (by decide) (by decide)
    (by decide) (by decide)
  have hrun : (decompose Cells.array 3 ⟨#[7, 7, -7, 7]⟩ (0 : Float)
      #[1, 2, 3, 4, 0 / 0, 5, 2, 1, 0, 9]).map (fun e => (e.stopped, e.order)) =
        .ok (some 1, ⟨#[1, 0, 2, 4]⟩) := by decide +kernel
  have horder : e.order = ⟨#[1, 0, 2, 4]⟩ := by
    rw [he] at hrun
    exact congrArg Prod.snd (Except.ok.inj hrun)
  rw [horder] at hrows hodd
  exact ⟨hrun, π, hrows, hodd.mp (by decide +kernel)⟩

end PivotedLU.Kernel
