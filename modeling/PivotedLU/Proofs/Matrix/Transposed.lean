import Mathlib.LinearAlgebra.Matrix.Notation
import PivotedLU.Proofs.Arithmetic
import PivotedLU.Proofs.Matrix.Product
import PivotedLU.Proofs.Transposition

/-!
# Transposed matrices

What `transpose` gives for a dense matrix is its transpose in the sense of linear algebra, under the
same policy. The transpose of a product is the product of the transposes the other way round, to the
last bit: every entry is the same sum in the same order, with the factors of each term exchanged.
-/

namespace PivotedLU

variable {α : Type} [Scalar α] {r k c : Nat}

/-! ## Transposes -/

theorem entryAt_transpose (A : Matrix (Fin r) (Fin c) α) :
    entryAt A.transpose = fun i j => entryAt A j i := by
  funext i j
  by_cases h : j < r ∧ i < c
  · simp [entryAt, h]
  · have h' : ¬ (i < c ∧ j < r) := fun h' => h h'.symm
    simp [entryAt, h, h']

theorem Dense.Shows.transpose {A : Matrix (Fin r) (Fin c) α} {d : Dense α} (h : d.Shows A) :
    ∃ e, PivotedLU.transpose (some (.dense d)) = .ok e ∧ e.strict = d.strict ∧
      e.Shows A.transpose := by
  have hblank : c * r ≤ (Array.replicate (c * r) (0 : α)).size := by simp
  obtain ⟨data, hdata, hkept, hget⟩ := Kernel.transposeInto_ok (h.data.fixed_shows _)
    (Cells.array_lawful hblank) (ChangedOnly.refl _ _)
  refine ⟨⟨c, r, data, d.strict⟩, ?_, rfl, h.fits.symm, rfl, rfl, .of_cellAt ?_ fun j i => ?_⟩
  · have hshape : (Operand.dense d).shape = ⟨Int64.ofNat r, Int64.ofNat c⟩ := h.operand.shape
    simp only [PivotedLU.transpose, Check.isPresent, hshape, h.fits.symm.zeros, h.rows, h.cols, hdata,
      bind, Except.bind, Result.ofFaulty]
    rfl
  · simpa using hkept.size
  · rw [hget i i.isLt j j.isLt, entryAt_val, Matrix.transpose_apply]

/-- Transposing twice gives the matrix back, entries, shape and policy. -/
theorem Dense.Shows.transpose_transpose {A : Matrix (Fin r) (Fin c) α} {d : Dense α} (h : d.Shows A) :
    ∃ e, PivotedLU.transpose (some (.dense d)) = .ok e ∧
      PivotedLU.transpose (some (.dense e)) = .ok d := by
  obtain ⟨e, he, hstrict, hshows⟩ := h.transpose
  obtain ⟨d', hd', hstrict', hshows'⟩ := hshows.transpose
  rw [Matrix.transpose_transpose] at hshows'
  rw [hshows'.unique h (hstrict'.trans hstrict)] at hd'
  exact ⟨e, he, hd'⟩

/-! ## Transposes of products -/

theorem sumProducts_comm (hcomm : ∀ x y : α, x * y = y * x) (f g : Nat → α) (n : Nat) :
    sumProducts f g n = sumProducts g f n := by
  refine List.foldl_ext _ _ 0 fun v l _ => ?_
  rw [hcomm]

theorem transpose_productOf (hcomm : ∀ x y : α, x * y = y * x) (A : Matrix (Fin r) (Fin k) α)
    (B : Matrix (Fin k) (Fin c) α) :
    (productOf A B).transpose = productOf B.transpose A.transpose := by
  ext j i
  simp only [Matrix.transpose_apply, productOf, Matrix.of_apply, entryAt_transpose]
  exact sumProducts_comm hcomm _ _ k

/-- The transpose of a product is the product of the transposes in the other order. Of the
arithmetic only this matters: the factors of a single product can be exchanged. -/
theorem transpose_multiply {A : Matrix (Fin r) (Fin k) Float} {B : Matrix (Fin k) (Fin c) Float}
    {a b d : Dense Float} (ha : a.Shows A) (hb : b.Shows B)
    (hd : multiply (some (.dense a)) (some (.dense b)) = .ok d) :
    ∃ a' b' e, transpose (some (.dense a)) = .ok a' ∧ transpose (some (.dense b)) = .ok b' ∧
      transpose (some (.dense d)) = .ok e ∧ multiply (some (.dense b')) (some (.dense a')) = .ok e := by
  obtain ⟨hdstrict, hdshows⟩ := shows_of_multiply ha.operand hb.operand hd
  obtain ⟨a', ha', -, hashows⟩ := ha.transpose
  obtain ⟨b', hb', -, hbshows⟩ := hb.transpose
  obtain ⟨e, he, hestrict, heshows⟩ := hdshows.transpose
  obtain ⟨e', he', hestrict', heshows'⟩ :=
    multiply_ok hbshows.operand hashows.operand hdshows.fits.symm
  rw [transpose_productOf Binary64.mul_numbers] at heshows
  have hequal : e' = e := heshows'.unique heshows (hestrict'.trans (hestrict.trans hdstrict).symm)
  exact ⟨a', b', e, ha', hb', he, hequal ▸ he'⟩

/-- A row with an infinite entry and a negative zero, times a matrix that is not square. One of the
sums begins with an infinite number times zero. -/
theorem transpose_multiply_infinite : ∃ d a' b' e : Dense Float,
    multiply (some (.dense (.ofMatrix !![1 / 0, -0, 3])))
      (some (.dense (.ofMatrix !![0, 1; 2, 1 / 0; 4, 5]))) = .ok d ∧
    transpose (some (.dense (.ofMatrix !![1 / 0, -0, 3]))) = .ok a' ∧
    transpose (some (.dense (.ofMatrix !![0, 1; 2, 1 / 0; 4, 5]))) = .ok b' ∧
    transpose (some (.dense d)) = .ok e ∧ multiply (some (.dense b')) (some (.dense a')) = .ok e := by
  have ha := Dense.shows_ofMatrix ⟨by decide, by decide, by decide⟩
    (!![1 / 0, -0, 3] : Matrix (Fin 1) (Fin 3) Float)
  have hb := Dense.shows_ofMatrix ⟨by decide, by decide, by decide⟩
    (!![0, 1; 2, 1 / 0; 4, 5] : Matrix (Fin 3) (Fin 2) Float)
  obtain ⟨d, hd, -⟩ := multiply_ok ha.operand hb.operand ⟨by decide, by decide, by decide⟩
  obtain ⟨a', b', e, hall⟩ := transpose_multiply ha hb hd
  exact ⟨d, a', b', e, hd, hall⟩

end PivotedLU
