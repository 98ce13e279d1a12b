import Mathlib.LinearAlgebra.Matrix.Notation
import PivotedLU.Proofs.Matrix.Product
import PivotedLU.Proofs.Precedence.Causes

/-!
# Products in a store

A product that is written into a matrix of a store is the one that `multiply` gives. Factors are only
read, so they may share their cells with each other, though not with the product.
-/

namespace PivotedLU

variable {α : Type} {r k c : Nat}

namespace StoredMatrix

variable {m : StoredMatrix} {s : Store α} {A : Matrix (Fin r) (Fin c) α}

theorem lt_blocks (hm : (m.view s).Shows A) : m.block < s.blocks.size := by
  refine Store.lt_blocks_of_lt_size (i := 0) ?_
  rw [show (s.block m.block).size = r * c from hm.data.size]
  exact Nat.mul_pos hm.fits.rows_pos hm.fits.cols_pos

/-- What is kept later goes into another block. -/
theorem view_keep (hm : (m.view s).Shows A) (d : Dense α) : m.view (s.keep d).2 = m.view s :=
  congrArg (Dense.mk m.rows m.cols · m.strict) (Store.block_alloc_of_lt d.data (lt_blocks hm))

variable {x y dst : StoredMatrix} {X : Matrix (Fin r) (Fin k) α} {Y : Matrix (Fin k) (Fin c) α}

theorem checkMultiplyInto_eq (hx : (x.view s).Shows X) (hy : (y.view s).Shows Y)
    (hdst : (dst.view s).Shows A) (hapart : dst.block ≠ x.block) (hapart' : dst.block ≠ y.block) :
    checkMultiplyInto (some dst) (some x) (some y) s = .ok (dst, x, y) := by
  refine checkMultiplyInto_ok ?_ ?_ ?_
  · exact congrArg Int64.ofNat (hx.cols.trans hy.rows.symm)
  · rintro (hrows | hcols)
    · exact hrows (hdst.rows.trans hx.rows.symm)
    · exact hcols (hdst.cols.trans hy.cols.symm)
  · simp only [List.forall_mem_cons, List.not_mem_nil, false_implies, implies_true, and_true]
    constructor
    · rintro ⟨_, _, hd, hv⟩
      exact hapart (hd.1.symm.trans hv.1)
    · rintro ⟨_, _, hd, hv⟩
      exact hapart' (hd.1.symm.trans hv.1)

variable [Scalar α]

/-- Another block may be written while the matrix is read. -/
theorem shows_apart {w : Window} (hm : (m.view s).Shows A) (hapart : w.block ≠ m.block) :
    Reader.Shows (m.window s).cells.read r c (s.ChangedOnly w.Covers) (entryAt A) := by
  intro t i j ht hi hj
  have hin : (m.window s).Inside s := Window.inside_whole s m.block
  have hlt : i * c + j < (m.window s).length := Nat.lt_of_lt_of_eq (place_lt hi hj) hm.data.size.symm
  rw [Window.read_of_apart hin (Window.overlaps_of_block_ne hapart) ht hlt, ← hm.data.cellAt hi hj]
  exact congrArg Except.ok (Window.cellAt_whole s s m.block _)

theorem multiplyInto_shows (hx : (x.view s).Shows X) (hy : (y.view s).Shows Y)
    (hdst : (dst.view s).Shows A) (hapart : dst.block ≠ x.block) (hapart' : dst.block ≠ y.block) :
    ∃ t, multiplyInto (some dst) (some x) (some y) s = (.ok (), t) ∧
      (dst.view t).Shows (productOf X Y) := by
  have hlength : (dst.window s).length = r * c := hdst.data.size
  obtain ⟨t, ht, hkept, hget⟩ := Kernel.product_ok
    ((dst.window s).cells_lawful (Window.inside_whole s dst.block) (Nat.le_of_eq hlength.symm))
    (shows_apart hx hapart) (shows_apart hy hapart') (.refl _ s)
  have hrows : x.rows = r := hx.rows
  have hinner : x.cols = k := hx.cols
  have hcols : y.cols = c := hy.cols
  refine ⟨t, ?_, hdst.fits, hdst.rows, hdst.cols, .of_cellAt ?_ fun i j => ?_⟩
  · rw [multiplyInto, checkMultiplyInto_eq hx hy hdst hapart hapart']
    dsimp only
    rw [hrows, hinner, hcols, ht]
    rfl
  · exact (hkept dst.block).size.trans hdst.data.size
  · exact (Window.cellAt_whole s t dst.block _).symm.trans (hget i i.isLt j j.isLt)

/-- A fresh matrix takes the product that `multiply` gives. -/
theorem multiplyInto_fresh {d : Dense α} (hx : (x.view s).Shows X) (hy : (y.view s).Shows Y)
    (hd : multiply (some (.dense (x.view s))) (some (.dense (y.view s))) = .ok d) :
    ∃ out t, Dense.zeros ⟨Int64.ofNat r, Int64.ofNat c⟩ = .ok out ∧
      multiplyInto (some (s.keep out).1) (some x) (some y) (s.keep out).2 = (.ok (), t) ∧
      (s.keep out).1.view t = d := by
  have hfits := fits_of_multiply hx.operand hy.operand hd
  obtain ⟨hstrict, hshows⟩ := shows_of_multiply hx.operand hy.operand hd
  let out : Dense α := ⟨r, c, Array.replicate (r * c) 0, true⟩
  have hout : out.Filled := ⟨hfits, Array.size_replicate⟩
  obtain ⟨t, ht, hview⟩ := multiplyInto_shows (x := x) (y := y) ((view_keep hx out).symm ▸ hx)
    ((view_keep hy out).symm ▸ hy) ((s.view_keep out).symm ▸ hout.shows)
    (Nat.ne_of_gt (lt_blocks hx)) (Nat.ne_of_gt (lt_blocks hy))
  exact ⟨out, t, hfits.zeros, ht, hview.unique hshows hstrict.symm⟩

end StoredMatrix

/-- Every column of a product is the product with that column alone and every row the product of that
row alone, also where the product is square and its slices are not. Written into a fresh matrix of a
store, the product is the same. -/
theorem multiply_sliced [Scalar α] {A : Matrix (Fin r) (Fin k) α} {B : Matrix (Fin k) (Fin c) α}
    {a b d : Dense α} (ha : a.Shows A) (hb : b.Shows B)
    (hd : multiply (some (.dense a)) (some (.dense b)) = .ok d) :
    ∃ D : Matrix (Fin r) (Fin c) α, d.Shows D ∧
      (∀ (j : Fin c) (b' : Dense α), b'.Shows (B.submatrix id fun _ : Fin 1 => j) →
        ∃ e, multiply (some (.dense a)) (some (.dense b')) = .ok e ∧
          e.Shows (D.submatrix id fun _ : Fin 1 => j)) ∧
      (∀ (i : Fin r) (a' : Dense α), a'.Shows (A.submatrix (fun _ : Fin 1 => i) id) →
        ∃ e, multiply (some (.dense a')) (some (.dense b)) = .ok e ∧
          e.Shows (D.submatrix (fun _ : Fin 1 => i) id)) ∧
      ∀ (s : Store α) (x y : StoredMatrix), x.view s = a → y.view s = b →
        ∃ out t, Dense.zeros ⟨Int64.ofNat r, Int64.ofNat c⟩ = .ok out ∧
          StoredMatrix.multiplyInto (some (s.keep out).1) (some x) (some y) (s.keep out).2 = (.ok (), t) ∧
          (s.keep out).1.view t = d := by
  have hfits := fits_of_multiply ha.operand hb.operand hd
  refine ⟨productOf A B, (shows_of_multiply ha.operand hb.operand hd).2, fun j b' hb' => ?_,
    fun i a' ha' => ?_, ?_⟩
  · obtain ⟨e, he, -, hshows⟩ := multiply_ok ha.operand hb'.operand hfits.column
    have hslice := productOf_submatrix A B id fun _ : Fin 1 => j
    rw [Matrix.submatrix_id_id] at hslice
    exact ⟨e, he, hslice ▸ hshows⟩
  · obtain ⟨e, he, -, hshows⟩ := multiply_ok ha'.operand hb.operand hfits.row
    have hslice := productOf_submatrix A B (fun _ : Fin 1 => i) id
    rw [Matrix.submatrix_id_id] at hslice
    exact ⟨e, he, hslice ▸ hshows⟩
  · rintro s x y rfl rfl
    exact StoredMatrix.multiplyInto_fresh ha hb hd

/-- The square of a matrix with an infinite entry: its second column, its second row, and the square
again from a block that both factors share. -/
theorem multiply_sliced_infinite : ∃ (d column row : Dense Float) (t : Store Float),
    multiply (some (.dense ⟨2, 2, #[1 / 0, 1, 0, 2], true⟩))
      (some (.dense ⟨2, 2, #[1 / 0, 1, 0, 2], true⟩)) = .ok d ∧
    multiply (some (.dense ⟨2, 2, #[1 / 0, 1, 0, 2], true⟩)) (some (.dense ⟨2, 1, #[1, 2], true⟩)) =
      .ok column ∧
    multiply (some (.dense ⟨1, 2, #[0, 2], true⟩)) (some (.dense ⟨2, 2, #[1 / 0, 1, 0, 2], true⟩)) =
      .ok row ∧
    column.data[0]? = d.data[1]? ∧ row.data[0]? = d.data[2]? ∧
    StoredMatrix.multiplyInto (some ⟨2, 2, 1, true⟩) (some ⟨2, 2, 0, true⟩) (some ⟨2, 2, 0, true⟩)
      ⟨#[#[1 / 0, 1, 0, 2], #[0, 0, 0, 0]]⟩ = (.ok (), t) ∧
    (⟨2, 2, 1, true⟩ : StoredMatrix).view t = d := by
  let A : Matrix (Fin 2) (Fin 2) Float := !![1 / 0, 1; 0, 2]
  have hA : (⟨2, 2, #[1 / 0, 1, 0, 2], true⟩ : Dense Float).Shows A := by
    refine ⟨⟨by decide, by decide, by decide⟩, rfl, rfl, rfl, fun i j => ?_⟩
    fin_cases i <;> fin_cases j <;> rfl
  have hcolumn : (⟨2, 1, #[1, 2], true⟩ : Dense Float).Shows (A.submatrix id fun _ : Fin 1 => 1) := by
    refine ⟨⟨by decide, by decide, by decide⟩, rfl, rfl, rfl, fun i j => ?_⟩
    fin_cases i <;> fin_cases j <;> rfl
  have hrow : (⟨1, 2, #[0, 2], true⟩ : Dense Float).Shows (A.submatrix (fun _ : Fin 1 => 1) id) := by
    refine ⟨⟨by decide, by decide, by decide⟩, rfl, rfl, rfl, fun i j => ?_⟩
    fin_cases i
    fin_cases j <;> rfl
  obtain ⟨d, hd, -⟩ := multiply_ok hA.operand hA.operand ⟨by decide, by decide, by decide⟩
  obtain ⟨D, hshows, hcolumns, hrows, hstored⟩ := multiply_sliced hA hA hd
  obtain ⟨column, hc, hcshows⟩ := hcolumns 1 _ hcolumn
  obtain ⟨row, hr, hrshows⟩ := hrows 1 _ hrow
  obtain ⟨out, t, hzeros, ht, hview⟩ := hstored ⟨#[#[1 / 0, 1, 0, 2]]⟩ ⟨2, 2, 0, true⟩ ⟨2, 2, 0, true⟩ rfl rfl
  cases hzeros.symm.trans hshows.fits.zeros
  exact ⟨d, column, row, t, hd, hc, hr, (hcshows.data.entry 0 0).trans (hshows.data.entry 0 1).symm,
    (hrshows.data.entry 0 0).trans (hshows.data.entry 1 0).symm, ht, hview⟩

end PivotedLU
