import PivotedLU.Proofs.RowOrder
import PivotedLU.Proofs.Substitution

/-!
# Columns of the inverse

A column of the inverse and the solution for a basis vector come out of the same two passes. They
are equal whatever the factors are, also where a pass divides by zero, and whatever stood in the
cells that they are written to.
-/

namespace PivotedLU

/-- Rows that lie in range, as numbers. No row has to be different from the others. -/
theorem RowOrder.exists_numbers {p : RowOrder} {n : Nat}
    (hp : ∀ i < n, ∃ v, p.entries[i]? = some v ∧ 0 ≤ v.toInt ∧ v.toInt < n) :
    ∃ q : Nat → Nat, ∀ i < n, p.entry i = .ok (Int64.ofNat (q i)) ∧ q i < n ∧ q i < 2 ^ 63 := by
  refine ⟨fun i => (p.entries[i]?.getD 0).toNatClampNeg, fun i hi => ?_⟩
  obtain ⟨v, hv, hnonneg, hlt⟩ := hp i hi
  obtain ⟨k, hk, rfl⟩ := exists_ofNat (Int64.le_iff_toInt_le.mpr hnonneg)
  rw [Int64.toInt_ofNat_of_lt hk, Int.ofNat_lt] at hlt
  simp only [hv, Option.getD_some, Int64.toNatClampNeg_ofNat_of_lt hk]
  exact ⟨entry_eq hv, hlt, hk⟩

namespace Kernel

variable {σ α : Type} [Scalar α] {n : Nat}

/-- The vector with one at place `j` and zero elsewhere. -/
def basisVector (n j : Nat) : Array α :=
  Array.ofFn fun i : Fin n => if (i : Nat) = j then 1 else 0

theorem fixed_basisVector {i : Nat} (hi : i < n) (j : Nat) (s : σ) :
    Reader.fixed (basisVector n j : Array α) s i = .ok (if i = j then 1 else 0) := by
  simp [Reader.fixed, basisVector, hi]

/-- Every column of the inverse is the solution for the basis vector of its place. The cells behind
the inverse stay as they were. -/
theorem invert_columns_solved {a ia : Array α} {p : RowOrder} (ha : n * n ≤ a.size)
    (hia : n * n ≤ ia.size) (hp : ∀ i < n, ∃ v, p.entries[i]? = some v ∧ 0 ≤ v.toInt ∧ v.toInt < n) :
    ∃ ia', invert (Reader.fixed a) p n Cells.array ia = .ok ia' ∧ ia'.size = ia.size ∧
      (∀ k, n * n ≤ k → ia'[k]? = ia[k]?) ∧
      ∀ j < n, ∀ x : Array α, n ≤ x.size →
        ∃ x', solve (Reader.fixed a) p (Reader.fixed (basisVector n j)) n Cells.array x = .ok x' ∧
          x'.size = x.size ∧ ∀ i < n, ∃ v, ia'[i * n + j]? = some v ∧ x'[i]? = some v := by
  obtain ⟨q, hq⟩ := RowOrder.exists_numbers hp
  have hentry : ∀ i < n, p.entry i = .ok (Int64.ofNat (q i)) := fun i hi => (hq i hi).1
  have hword : ∀ i < n, q i < 2 ^ 63 := fun i hi => (hq i hi).2.2
  obtain ⟨ia', hrun, hkept, hcolumns⟩ := invert_ok (Cells.array_lawful hia)
    (Reader.fixed_shows ha _) hentry hword (.refl _ ia)
  refine ⟨ia', hrun, hkept.size, fun k hk => hkept.cell k (Nat.not_lt.mpr hk), ?_⟩
  intro j hj x hx
  obtain ⟨x', hrun', hkept', hsolved⟩ := solve_ok (Cells.array_lawful hx) (Reader.fixed_shows ha _)
    hentry hword (b := Reader.fixed (basisVector n j)) (v := fun i => if i = j then 1 else 0)
    (fun s _ i hi => fixed_basisVector (hq i hi).2.1 j s) (.refl _ x)
  refine ⟨x', hrun', hkept'.size, fun i hi => ⟨cellAt x' i, ?_, ?_⟩⟩
  · have hlt : i * n + j < ia'.size := by
      rw [hkept.size]
      exact Nat.lt_of_lt_of_le (place_lt hi hj) hia
    rw [getElem?_eq_cellAt hlt, (hcolumns j hj).unique hsolved i hi]
  · have hlt : i < x'.size := by
      rw [hkept'.size]
      exact Nat.lt_of_lt_of_le hi hx
    exact getElem?_eq_cellAt hlt

/-- Factors with a zero on the diagonal and a record that names one row twice. -/
theorem invert_columns_solved_zero_diagonal :
    ∃ ia' : Array Float,
      invert (Reader.fixed #[0, 2, 0.5, 4]) ⟨#[1, 1, 7]⟩ 2 Cells.array #[9, 0 / 0, 7, 8, 5] = .ok ia' ∧
      ia'[4]? = some 5 ∧
      ∃ x', solve (Reader.fixed #[0, 2, 0.5, 4]) ⟨#[1, 1, 7]⟩ (Reader.fixed (basisVector 2 1)) 2
        Cells.array #[3, 0 / 0, 6] = .ok x' ∧ ∃ v, ia'[1]? = some v ∧ x'[0]? = some v := by
  have ha : 2 * 2 ≤ (#[0, 2, 0.5, 4] : Array Float).size := by decide
  have hia : 2 * 2 ≤ (#[9, 0 / 0, 7, 8, 5] : Array Float).size := by decide
  have hrow : ∀ i < 2, (#[1, 1, 7] : Array Int64)[i]? = some 1 := by decide
  obtain ⟨ia', hrun, -, hkept, hcolumns⟩ := invert_columns_solved (p := ⟨#[1, 1, 7]⟩) ha hia
    fun i hi => ⟨1, hrow i hi, by decide, by decide⟩
  obtain ⟨x', hsolve, -, hequal⟩ := hcolumns 1 (by decide) #[3, 0 / 0, 6] (by decide)
  exact ⟨ia', hrun, hkept 4 (by decide), x', hsolve, hequal 0 (by decide)⟩

end Kernel

end PivotedLU
