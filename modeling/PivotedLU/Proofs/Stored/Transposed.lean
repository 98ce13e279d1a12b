import PivotedLU.Proofs.Matrix.Transposed
import PivotedLU.Proofs.Stored.Empty

/-!
# Transposition in a store

A square matrix that is transposed where it stands becomes what `transpose` gives for a copy.
-/

namespace PivotedLU

variable {α : Type} [Scalar α] {n : Nat} {s : Store α}

namespace StoredMatrix

variable {m : StoredMatrix}

theorem transposeInPlace_shows {A : Matrix (Fin n) (Fin n) α} (hm : (m.view s).Shows A) :
    ∃ t, transposeInPlace (some m) s = (.ok (), t) ∧ (m.view t).Shows A.transpose := by
  have hw := holds_window hm
  have hrows : m.rows = n := hm.rows
  obtain ⟨t, ht, hkept, hget⟩ := Kernel.transpose_ok
    ((m.window s).cells_lawful hw.inside hw.room) (.refl _ s)
  refine ⟨t, ?_, hm.fits, hm.rows, hm.cols, .of_cellAt ?_ fun i j => ?_⟩
  · rw [transposeInPlace, Check.isSquare_eq (shape_eq hm)]
    show s.commit (Kernel.transpose (m.window s).cells m.rows s) = _
    rw [hrows, ht]
    rfl
  · exact (hkept m.block).size.trans hm.data.size
  · have hcell := hget i i.isLt j j.isLt
    rw [hw.cell j j.isLt i i.isLt, entryAt_val] at hcell
    exact (Window.cellAt_whole s t m.block _).symm.trans hcell

omit [Scalar α] in
theorem Fills.view_ne_empty (hm : m.Fills s) : m.view s ≠ .empty := by
  intro hempty
  have hrows : m.rows = 0 := congrArg Dense.rows hempty
  exact Nat.ne_of_gt hm.fits.rows_pos hrows

omit [Scalar α] in
theorem transposeInPlace_empty (hm : m.view s = .empty) : transposeInPlace (some m) s = (.ok (), s) := by
  rw [(eq_of_view_empty hm).1]
  rfl

/-- In place and on a copy, a square matrix has one transpose. -/
theorem transpose_view (hm : m.Fills s) (hsquare : m.rows = m.cols) :
    ∃ t, transposeInPlace (some m) s = (.ok (), t) ∧
      transpose (some (.dense (m.view s))) = .ok (m.view t) := by
  obtain ⟨rows, cols, block, strict⟩ := m
  dsimp only at hsquare
  subst hsquare
  obtain ⟨t, ht, hshows⟩ := transposeInPlace_shows hm.shows
  obtain ⟨e, he, hstrict, hshows'⟩ := hm.shows.transpose
  exact ⟨t, ht, by rw [he, hshows'.unique hshows hstrict]⟩

end StoredMatrix

/-- Transposing in place exchanges the opposite entries of a block and touches nothing behind it. So
a square matrix becomes what `transpose` gives for it; the empty one, of which `transpose` makes no
copy, stays as it is. A matrix of any shape is the transpose of its transpose. -/
theorem transposition_agrees :
    (∀ (n : Nat) (a : Array α), n * n ≤ a.size →
      ∃ a', Kernel.transpose Cells.array n a = .ok a' ∧ a'.size = a.size ∧
        (∀ i < n, ∀ j < n, a'[i * n + j]? = a[j * n + i]?) ∧ ∀ k, n * n ≤ k → a'[k]? = a[k]?) ∧
    (∀ (m : StoredMatrix) (s : Store α), m.Fills s ∨ m.view s = .empty → m.rows = m.cols →
      ∃ t, StoredMatrix.transposeInPlace (some m) s = (.ok (), t) ∧
        (m.Fills s → transpose (some (.dense (m.view s))) = .ok (m.view t)) ∧
        (m.view s = .empty → m.view t = .empty)) ∧
    ∀ d : Dense α, d.Filled →
      ∃ e, transpose (some (.dense d)) = .ok e ∧ transpose (some (.dense e)) = .ok d := by
  refine ⟨fun n a ha => ?_, fun m s hm hsquare => ?_, fun d hd => hd.shows.transpose_transpose⟩
  · obtain ⟨a', hrun, hkept, hget⟩ := Kernel.transpose_ok (Cells.array_lawful ha) (.refl _ a)
    refine ⟨a', hrun, hkept.size, fun i hi j hj => ?_, fun k hk => hkept.cell k (Nat.not_lt.mpr hk)⟩
    have hlt : i * n + j < a'.size := hkept.size ▸ Nat.lt_of_lt_of_le (place_lt hi hj) ha
    have hlt' : j * n + i < a.size := Nat.lt_of_lt_of_le (place_lt hj hi) ha
    rw [getElem?_eq_cellAt hlt, getElem?_eq_cellAt hlt', hget i hi j hj]
  · rcases hm with hfills | hempty
    · obtain ⟨t, ht, hview⟩ := StoredMatrix.transpose_view hfills hsquare
      exact ⟨t, ht, fun _ => hview, fun hempty => absurd hempty hfills.view_ne_empty⟩
    · exact ⟨s, StoredMatrix.transposeInPlace_empty hempty,
        fun hfills => absurd hempty hfills.view_ne_empty, fun _ => hempty⟩

/-- A block with a cell behind it, a matrix that holds a NaN, and one that is not square. -/
theorem transposition_agrees_two_rows :
    (∃ a', Kernel.transpose Cells.array 2 (#[1, 2, 3, 0 / 0, 5] : Array Float) = .ok a' ∧
      a'[1]? = some 3 ∧ a'[4]? = some 5) ∧
    (∃ t, StoredMatrix.transposeInPlace (some ⟨2, 2, 0, false⟩)
        (⟨#[#[1, 2, 3, 0 / 0]]⟩ : Store Float) = (.ok (), t) ∧
      transpose (some (.dense ⟨2, 2, #[1, 2, 3, 0 / 0], false⟩)) =
        .ok ((⟨2, 2, 0, false⟩ : StoredMatrix).view t)) ∧
    ∃ e, transpose (some (.dense ⟨1, 2, #[1 / 0, -0], false⟩)) = .ok e ∧
      transpose (some (.dense e)) = .ok (⟨1, 2, #[1 / 0, -0], false⟩ : Dense Float) := by
  obtain ⟨hblock, hstored, htwice⟩ := transposition_agrees (α := Float)
  obtain ⟨a', hrun, -, hentries, hkept⟩ := hblock 2 #[1, 2, 3, 0 / 0, 5] (by decide)
  have hfills : (⟨2, 2, 0, false⟩ : StoredMatrix).Fills (⟨#[#[1, 2, 3, 0 / 0]]⟩ : Store Float) :=
    ⟨⟨by decide, by decide, by decide⟩, rfl⟩
  obtain ⟨t, ht, hview, -⟩ := hstored ⟨2, 2, 0, false⟩ ⟨#[#[1, 2, 3, 0 / 0]]⟩ (.inl hfills) rfl
  exact ⟨⟨a', hrun, hentries 0 (by decide) 1 (by decide), hkept 4 (by decide)⟩, ⟨t, ht, hview hfills⟩,
    htwice _ ⟨⟨by decide, by decide, by decide⟩, rfl⟩⟩

end PivotedLU
