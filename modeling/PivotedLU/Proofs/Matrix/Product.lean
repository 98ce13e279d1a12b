import Mathlib.Data.Matrix.Mul
import PivotedLU.Matrix.Arithmetic
import PivotedLU.Proofs.Exact
import PivotedLU.Proofs.Matrix.View
import PivotedLU.Proofs.Product

/-!
# Products of matrices
-/

namespace PivotedLU

variable {α : Type} {r k c : Nat}

/-- The product whose entries are added up from the left, starting at zero. -/
def productOf [Scalar α] (A : Matrix (Fin r) (Fin k) α) (B : Matrix (Fin k) (Fin c) α) :
    Matrix (Fin r) (Fin c) α :=
  Matrix.of fun i j => sumProducts (entryAt A i) (fun l => entryAt B l j) k

theorem multiply_ok [Scalar α] {a b : Operand α} {A : Matrix (Fin r) (Fin k) α}
    {B : Matrix (Fin k) (Fin c) α} (ha : a.Shows A) (hb : b.Shows B) (hfits : Fits r c) :
    ∃ d, multiply (some a) (some b) = .ok d ∧ d.strict = true ∧ d.Shows (productOf A B) := by
  obtain ⟨x, hx, hxA⟩ := ha.flatten
  obtain ⟨y, hy, hyB⟩ := hb.flatten
  have hblank : r * c ≤ (Array.replicate (r * c) (0 : α)).size := by simp
  obtain ⟨data, hdata, hkept, hget⟩ := Kernel.product_ok (Cells.array_lawful hblank)
    (hxA.fixed_shows _) (hyB.fixed_shows _) (ChangedOnly.refl _ _)
  refine ⟨⟨r, c, data, true⟩, ?_, rfl, hfits, rfl, rfl, .of_cellAt ?_ fun i j => hget i i.isLt j j.isLt⟩
  · simp only [multiply, ha.areMultipliable hb, ha.shape, hb.shape, hfits.zeros, hx, hy, ha.rowCount,
      ha.colCount, hb.colCount, hdata, bind, Except.bind, Result.ofFaulty]
    rfl
  · simpa using hkept.size

/-- Matrices that fit together fail to have a product only when the product would be too large. -/
theorem fits_of_multiply [Scalar α] {a b : Operand α} {A : Matrix (Fin r) (Fin k) α}
    {B : Matrix (Fin k) (Fin c) α} {d : Dense α} (ha : a.Shows A) (hb : b.Shows B)
    (h : multiply (some a) (some b) = .ok d) : Fits r c := by
  by_cases hvalid : (⟨Int64.ofNat r, Int64.ofNat c⟩ : Shape).isValid = true
  · exact .of_isValid ha.fits.rows_lt hb.fits.cols_lt hvalid
  · have hzeros : (Dense.zeros ⟨Int64.ofNat r, Int64.ofNat c⟩ : Result (Dense α)) =
        .fail .invalidDimensions := if_neg hvalid
    simp only [multiply, ha.areMultipliable hb, ha.shape, hb.shape, hzeros, bind, Except.bind] at h
    cases h

theorem shows_of_multiply [Scalar α] {a b : Operand α} {A : Matrix (Fin r) (Fin k) α}
    {B : Matrix (Fin k) (Fin c) α} {d : Dense α} (ha : a.Shows A) (hb : b.Shows B)
    (h : multiply (some a) (some b) = .ok d) : d.strict = true ∧ d.Shows (productOf A B) := by
  obtain ⟨d', hd', hstrict, hshows⟩ := multiply_ok ha hb (fits_of_multiply ha hb h)
  cases hd'.symm.trans h
  exact ⟨hstrict, hshows⟩

/-- An entry of a product depends on one row and one column only. -/
theorem productOf_submatrix [Scalar α] {r' c' : Nat} (A : Matrix (Fin r) (Fin k) α)
    (B : Matrix (Fin k) (Fin c) α) (f : Fin r' → Fin r) (g : Fin c' → Fin c) :
    productOf (A.submatrix f id) (B.submatrix id g) = (productOf A B).submatrix f g := by
  ext i j
  have hrow : entryAt (A.submatrix f id) i = entryAt A (f i) := by
    funext l
    simp [entryAt]
  have hcol : (fun l => entryAt (B.submatrix id g) l j) = fun l => entryAt B l (g j) := by
    funext l
    simp [entryAt]
  rw [Matrix.submatrix_apply, productOf, productOf, Matrix.of_apply, Matrix.of_apply, hrow, hcol]

theorem productOf_eq_mul {K : Type} [Field K] [LinearOrder K] (A : Matrix (Fin r) (Fin k) K)
    (B : Matrix (Fin k) (Fin c) K) : productOf A B = A * B := by
  ext i j
  rw [Matrix.mul_apply, productOf, Matrix.of_apply, sumProducts_eq_sum,
    ← Fin.sum_univ_eq_sum_range (fun l => entryAt A i l * entryAt B l j)]
  simp only [entryAt_val]

theorem multiply_exact {K : Type} [Field K] [LinearOrder K] {a b : Operand K}
    {A : Matrix (Fin r) (Fin k) K} {B : Matrix (Fin k) (Fin c) K} (ha : a.Shows A) (hb : b.Shows B)
    (hfits : Fits r c) :
    ∃ d, multiply (some a) (some b) = .ok d ∧ d.strict = true ∧ d.Shows (A * B) := by
  rw [← productOf_eq_mul]
  exact multiply_ok ha hb hfits

/-- Equal products of matrices are one dense matrix. -/
theorem multiply_eq_multiply {K : Type} [Field K] [LinearOrder K] {k' : Nat} {a b a' b' : Operand K}
    {A : Matrix (Fin r) (Fin k) K} {B : Matrix (Fin k) (Fin c) K} {A' : Matrix (Fin r) (Fin k') K}
    {B' : Matrix (Fin k') (Fin c) K} (ha : a.Shows A) (hb : b.Shows B) (ha' : a'.Shows A')
    (hb' : b'.Shows B') (hfits : Fits r c) (h : A * B = A' * B') :
    ∃ d, multiply (some a) (some b) = .ok d ∧ multiply (some a') (some b') = .ok d ∧
      d.Shows (A * B) := by
  obtain ⟨d, hd, hstrict, hshows⟩ := multiply_exact ha hb hfits
  obtain ⟨d', hd', hstrict', hshows'⟩ := multiply_exact ha' hb' hfits
  rw [← h] at hshows'
  rw [hshows'.unique hshows (hstrict'.trans hstrict.symm)] at hd'
  exact ⟨d, hd, hd', hshows⟩

end PivotedLU
