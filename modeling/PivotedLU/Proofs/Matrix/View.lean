import Mathlib.LinearAlgebra.Matrix.Defs
import PivotedLU.Matrix.Check
import PivotedLU.Matrix.Operand
import PivotedLU.Proofs.Cells
import PivotedLU.Proofs.Loop

/-!
# Matrices as tables of entries

`Dense.Shows` and `Operand.Shows` relate what operations take and give to matrices in the sense of
linear algebra. A matrix shown has a shape that the checks accept.
-/

namespace PivotedLU

variable {α : Type} {r c n : Nat}

/-! ## Shapes -/

/-- No side is empty, and the number of cells is a signed 64-bit number. -/
structure Fits (r c : Nat) : Prop where
  rows_pos : 0 < r
  cols_pos : 0 < c
  size_lt : r * c < 2 ^ 63

theorem Fits.symm (h : Fits r c) : Fits c r :=
  ⟨h.cols_pos, h.rows_pos, Nat.mul_comm r c ▸ h.size_lt⟩

theorem Fits.rows_lt (h : Fits r c) : r < 2 ^ 63 :=
  Nat.lt_of_le_of_lt (Nat.le_mul_of_pos_right r h.cols_pos) h.size_lt

theorem Fits.cols_lt (h : Fits r c) : c < 2 ^ 63 :=
  h.symm.rows_lt

theorem Fits.column (h : Fits r c) : Fits r 1 :=
  ⟨h.rows_pos, Nat.one_pos, (Nat.mul_one r).symm ▸ h.rows_lt⟩

theorem Fits.row (h : Fits r c) : Fits 1 c :=
  h.symm.column.symm

theorem Fits.double_lt (h : Fits n n) : n + n < 2 ^ 63 := by
  rcases Nat.lt_or_ge 1 n with hn | hn
  · calc n + n = 2 * n := (Nat.two_mul n).symm
      _ ≤ n * n := Nat.mul_le_mul_right n hn
      _ < 2 ^ 63 := h.size_lt
  · exact Nat.lt_of_le_of_lt (Nat.add_le_add hn hn) (by decide)

theorem Fits.isValid (h : Fits r c) : (⟨Int64.ofNat r, Int64.ofNat c⟩ : Shape).isValid = true := by
  have hmax : Int64.maxValue = Int64.ofNat (2 ^ 63 - 1) := rfl
  have hle : r ≤ (2 ^ 63 - 1) / c := by
    rw [Nat.le_div_iff_mul_le h.cols_pos]
    have := h.size_lt
    omega
  have hdiv : (2 ^ 63 - 1) / c < 2 ^ 63 := Nat.lt_of_le_of_lt (Nat.div_le_self _ _) (by decide)
  have hzero : (0 : Int64) = Int64.ofNat 0 := rfl
  simp only [Shape.isValid, hmax, hzero, Bool.and_eq_true, decide_eq_true_eq]
  rw [← Int64.ofNat_div (by decide) h.cols_lt, Int64.ofNat_lt_iff_lt (by decide) h.rows_lt,
    Int64.ofNat_lt_iff_lt (by decide) h.cols_lt, Int64.ofNat_le_iff_le h.rows_lt hdiv]
  exact ⟨⟨h.rows_pos, h.cols_pos⟩, hle⟩

/-- The shapes that the checks accept. -/
theorem Shape.exists_fits {s : Shape} (h : s.isValid = true) :
    ∃ r c, Fits r c ∧ s = ⟨Int64.ofNat r, Int64.ofNat c⟩ := by
  obtain ⟨rows, cols⟩ := s
  simp only [Shape.isValid, Bool.and_eq_true, decide_eq_true_eq] at h
  obtain ⟨⟨hrows, hcols⟩, hmax⟩ := h
  obtain ⟨r, hr, rfl⟩ := exists_ofNat (Int64.le_of_lt hrows)
  obtain ⟨c, hc, rfl⟩ := exists_ofNat (Int64.le_of_lt hcols)
  have hword : Int64.maxValue = Int64.ofNat (2 ^ 63 - 1) := rfl
  have hzero : (0 : Int64) = Int64.ofNat 0 := rfl
  have hdiv : (2 ^ 63 - 1) / c < 2 ^ 63 := Nat.lt_of_le_of_lt (Nat.div_le_self _ _) (by decide)
  rw [hzero, Int64.ofNat_lt_iff_lt (by decide) hr] at hrows
  rw [hzero, Int64.ofNat_lt_iff_lt (by decide) hc] at hcols
  rw [hword, ← Int64.ofNat_div (by decide) hc, Int64.ofNat_le_iff_le hr hdiv,
    Nat.le_div_iff_mul_le hcols] at hmax
  exact ⟨r, c, ⟨hrows, hcols, by omega⟩, rfl⟩

theorem Fits.of_isValid (hr : r < 2 ^ 63) (hc : c < 2 ^ 63)
    (h : (⟨Int64.ofNat r, Int64.ofNat c⟩ : Shape).isValid = true) : Fits r c := by
  obtain ⟨r', c', hfits, hshape⟩ := Shape.exists_fits h
  obtain ⟨hrows, hcols⟩ := Shape.mk.inj hshape
  obtain rfl := (ofNat_inj hr hfits.rows_lt).mp hrows
  obtain rfl := (ofNat_inj hc hfits.cols_lt).mp hcols
  exact hfits

theorem Fits.size (h : Fits r c) : (⟨Int64.ofNat r, Int64.ofNat c⟩ : Shape).size = r * c := by
  rw [Shape.size, ← Int64.ofNat_mul, Int64.toNatClampNeg_ofNat_of_lt h.size_lt]

theorem Fits.zeros [Zero α] (h : Fits r c) : Dense.zeros ⟨Int64.ofNat r, Int64.ofNat c⟩ =
    .ok (⟨r, c, Array.replicate (r * c) (0 : α), true⟩ : Dense α) := by
  rw [Dense.zeros, if_pos h.isValid, h.size]
  simp only [Int64.toNatClampNeg_ofNat_of_lt h.rows_lt, Int64.toNatClampNeg_ofNat_of_lt h.cols_lt]

/-! ## Entries -/

/-- The entries of a matrix by number; zero outside of it. -/
def entryAt [Zero α] (A : Matrix (Fin r) (Fin c) α) (i j : Nat) : α :=
  if h : i < r ∧ j < c then A ⟨i, h.1⟩ ⟨j, h.2⟩ else 0

@[simp] theorem entryAt_val [Zero α] (A : Matrix (Fin r) (Fin c) α) (i : Fin r) (j : Fin c) :
    entryAt A i j = A i j := by
  simp [entryAt]

/-- An array with the entries of a matrix row by row. -/
structure RowMajor (data : Array α) (A : Matrix (Fin r) (Fin c) α) : Prop where
  size : data.size = r * c
  entry : ∀ (i : Fin r) (j : Fin c), data[(i * c + j : Nat)]? = some (A i j)

theorem RowMajor.cellAt [Zero α] {data : Array α} {A : Matrix (Fin r) (Fin c) α}
    (h : RowMajor data A) {i j : Nat} (hi : i < r) (hj : j < c) :
    cellAt data (i * c + j) = entryAt A i j := by
  have he := h.entry ⟨i, hi⟩ ⟨j, hj⟩
  simp_all [PivotedLU.cellAt, entryAt]

theorem RowMajor.of_cellAt [Zero α] {data : Array α} {A : Matrix (Fin r) (Fin c) α}
    (hsize : data.size = r * c)
    (h : ∀ (i : Fin r) (j : Fin c), PivotedLU.cellAt data (i * c + j) = A i j) : RowMajor data A := by
  refine ⟨hsize, fun i j => ?_⟩
  have hlt : (i * c + j : Nat) < data.size := hsize ▸ place_lt i.isLt j.isLt
  rw [getElem?_eq_cellAt hlt, h i j]

theorem RowMajor.fixed_shows [Zero α] {σ : Type} {data : Array α} {A : Matrix (Fin r) (Fin c) α}
    (h : RowMajor data A) (ok : σ → Prop) : (Reader.fixed data).Shows r c ok (entryAt A) := by
  intro s i j hs hi hj
  rw [← h.cellAt hi hj]
  exact Reader.fixed_shows (Nat.le_of_eq h.size.symm) ok hs hi hj

theorem RowMajor.unique {data data' : Array α} {A : Matrix (Fin r) (Fin c) α} (h : RowMajor data A)
    (h' : RowMajor data' A) : data = data' := by
  refine Array.ext_getElem? fun k => ?_
  rcases Nat.lt_or_ge k (r * c) with hk | hk
  · obtain ⟨i, hi, j, hj, rfl⟩ := exists_place hk
    exact (h.entry ⟨i, hi⟩ ⟨j, hj⟩).trans (h'.entry ⟨i, hi⟩ ⟨j, hj⟩).symm
  · rw [Array.getElem?_eq_none (h.size ▸ hk), Array.getElem?_eq_none (h'.size ▸ hk)]

/-! ## Matrices shown -/

/-- A dense matrix of an accepted shape with the entries of `A`. -/
structure Dense.Shows (d : Dense α) (A : Matrix (Fin r) (Fin c) α) : Prop where
  fits : Fits r c
  rows : d.rows = r
  cols : d.cols = c
  data : RowMajor d.data A

/-- A matrix that reports an accepted shape and answers with the entries of `A`. -/
structure Foreign.Shows (f : Foreign α) (A : Matrix (Fin r) (Fin c) α) : Prop where
  fits : Fits r c
  shape : f.shape = ⟨Int64.ofNat r, Int64.ofNat c⟩
  entry : ∀ (i : Fin r) (j : Fin c), f.entry (Int64.ofNat i) (Int64.ofNat j) = .ok (A i j)

def Operand.Shows (m : Operand α) (A : Matrix (Fin r) (Fin c) α) : Prop :=
  match m with
  | .dense d => d.Shows A
  | .foreign f => f.Shows A

/-- The dense matrix with the entries of `A`. -/
def Dense.ofMatrix (A : Matrix (Fin r) (Fin c) α) : Dense α :=
  ⟨r, c, Array.ofFn fun k : Fin (r * c) => A k.divNat k.modNat, true⟩

theorem Dense.shows_ofMatrix (hfits : Fits r c) (A : Matrix (Fin r) (Fin c) α) :
    (ofMatrix A).Shows A := by
  refine ⟨hfits, rfl, rfl, by simp [ofMatrix], fun i j => ?_⟩
  have hlt : (i * c + j : Nat) < r * c := place_lt i.isLt j.isLt
  have hrow : Fin.divNat ⟨i * c + j, hlt⟩ = i := Fin.ext (place_div j.isLt)
  have hcol : Fin.modNat ⟨i * c + j, hlt⟩ = j := Fin.ext (place_mod j.isLt)
  rw [ofMatrix, Array.getElem?_ofFn, dif_pos hlt, hrow, hcol]

theorem Dense.Shows.operand {d : Dense α} {A : Matrix (Fin r) (Fin c) α} (h : d.Shows A) :
    (Operand.dense d).Shows A :=
  h

theorem Dense.Shows.unique {d d' : Dense α} {A : Matrix (Fin r) (Fin c) α} (h : d.Shows A)
    (h' : d'.Shows A) (hstrict : d.strict = d'.strict) : d = d' := by
  cases d
  cases d'
  simp only [Dense.mk.injEq]
  exact ⟨h.rows.trans h'.rows.symm, h.cols.trans h'.cols.symm, h.data.unique h'.data, hstrict⟩

variable {m : Operand α} {A : Matrix (Fin r) (Fin c) α}

theorem Operand.Shows.fits (h : m.Shows A) : Fits r c := by
  cases m with
  | dense d => exact Dense.Shows.fits h
  | foreign f => exact Foreign.Shows.fits h

theorem Operand.Shows.shape (h : m.Shows A) : m.shape = ⟨Int64.ofNat r, Int64.ofNat c⟩ := by
  cases m with
  | dense d => rw [Operand.shape, Dense.shape, Dense.Shows.rows h, Dense.Shows.cols h]
  | foreign f => exact Foreign.Shows.shape h

theorem Operand.Shows.rowCount (h : m.Shows A) : m.rowCount = r := by
  cases m with
  | dense d => exact Dense.Shows.rows h
  | foreign f =>
      have hf : f.Shows A := h
      rw [Operand.rowCount, hf.shape, Int64.toNatClampNeg_ofNat_of_lt hf.fits.rows_lt]

theorem Operand.Shows.colCount (h : m.Shows A) : m.colCount = c := by
  cases m with
  | dense d => exact Dense.Shows.cols h
  | foreign f =>
      have hf : f.Shows A := h
      rw [Operand.colCount, hf.shape, Int64.toNatClampNeg_ofNat_of_lt hf.fits.cols_lt]

theorem Foreign.Shows.flatten {f : Foreign α} (h : f.Shows A) :
    ∃ data, f.flatten = .ok data ∧ RowMajor data A := by
  unfold Foreign.flatten
  rw [h.shape, if_pos h.fits.isValid]
  simp only [Int64.toNatClampNeg_ofNat_of_lt h.fits.rows_lt,
    Int64.toNatClampNeg_ofNat_of_lt h.fits.cols_lt]
  refine Loop.up_up_ok (fun k data => data.size = k ∧ ∀ (i : Fin r) (j : Fin c),
      i * c + j < k → data[(i * c + j : Nat)]? = some (A i j)) ⟨rfl, fun i j h => by omega⟩ ?_ ?_
  · rintro i j data hi hj ⟨hsize, hentry⟩
    refine ⟨data.push (A ⟨i, hi⟩ ⟨j, hj⟩), ?_, by rw [Array.size_push, hsize], fun i' j' h' => ?_⟩
    · have hask : f.ask i j = .ok (A ⟨i, hi⟩ ⟨j, hj⟩) := by
        rw [Foreign.ask, h.entry ⟨i, hi⟩ ⟨j, hj⟩]
      rw [hask]
      rfl
    · rw [Array.getElem?_push, hsize]
      rcases Nat.lt_succ_iff_lt_or_eq.mp h' with hlt | heq
      · rw [if_neg (Nat.ne_of_lt hlt)]
        exact hentry i' j' hlt
      · obtain ⟨rfl, rfl⟩ := (place_inj j'.isLt hj).mp heq
        rw [if_pos rfl]
  · rintro data ⟨hsize, hentry⟩
    exact ⟨hsize, fun i j => hentry i j (place_lt i.isLt j.isLt)⟩

theorem Operand.Shows.flatten (h : m.Shows A) : ∃ data, m.flatten = .ok data ∧ RowMajor data A := by
  cases m with
  | dense d => exact ⟨d.data, rfl, Dense.Shows.data h⟩
  | foreign f => exact Foreign.Shows.flatten h

/-! ## Checks that a shown matrix passes -/

theorem Check.isSquare_eq {μ : Type} [HasShape μ] {x : μ}
    (h : HasShape.shape x = ⟨Int64.ofNat n, Int64.ofNat n⟩) : Check.isSquare (some x) = .ok x := by
  simp only [Check.isSquare, Check.isPresent, Check.tag, Result.within, bind, Except.bind, h, ne_eq,
    not_true_eq_false, if_false]
  rfl

theorem Check.haveSameShape_eq {μ ν : Type} [HasShape μ] [HasShape ν] {x : μ} {y : ν}
    (h : HasShape.shape x = HasShape.shape y) : Check.haveSameShape (some x) (some y) = .ok (x, y) := by
  simp only [Check.haveSameShape, Check.isPresent, Check.tag, Result.within, bind, Except.bind, h, ne_eq,
    not_true_eq_false, if_false]
  rfl

theorem Check.hasLength_eq (hn : n < 2 ^ 63) : Check.hasLength (some n) (Int64.ofNat n) = .ok () := by
  rw [Check.hasLength, Int64.toInt_ofNat_of_lt hn]
  exact if_neg fun hne => hne rfl

theorem Operand.Shows.isSquare {A : Matrix (Fin n) (Fin n) α} (h : m.Shows A) :
    Check.isSquare (some m) = .ok m :=
  Check.isSquare_eq h.shape

theorem Operand.Shows.areMultipliable {k : Nat} {m' : Operand α} {B : Matrix (Fin c) (Fin k) α}
    (h : m.Shows A) (h' : m'.Shows B) : Check.areMultipliable (some m) (some m') = .ok (m, m') := by
  have hshape : HasShape.shape m = ⟨Int64.ofNat r, Int64.ofNat c⟩ := h.shape
  have hshape' : HasShape.shape m' = ⟨Int64.ofNat c, Int64.ofNat k⟩ := h'.shape
  simp only [Check.areMultipliable, Check.isPresent, Check.tag, Result.within, bind, Except.bind, hshape,
    hshape', ne_eq, not_true_eq_false, if_false]
  rfl

end PivotedLU
