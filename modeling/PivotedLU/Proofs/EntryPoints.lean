import PivotedLU.Proofs.Flat.Answers
import PivotedLU.Proofs.Settings

/-!
# Entry points

The same computation can be entered on values, on stored matrices, through factors that were made
before, and on flat buffers. All ways lead to the same answers or stop at the same column.
-/

namespace PivotedLU

variable {α : Type} [Scalar α] {n : Nat} {d : Dense α} {b : Fin n → α}

/-- A store with a copy of the matrix `d`, another matrix of its shape to hold an inverse, the
right-hand side `b` and room for a solution. -/
structure Workspace (d : Dense α) (b : Fin n → α) where
  store : Store α
  copy : StoredMatrix
  out : StoredMatrix
  rhs : Window
  solution : Window
  copy_view : copy.view store = d
  out_rows : out.rows = d.rows
  out_cols : out.cols = d.cols
  out_size : (store.block out.block).size = d.data.size
  out_apart : out.block ≠ copy.block
  rhs_inside : rhs.Inside store
  rhs_contents : rhs.contents store = Array.ofFn b
  rhs_apart : copy.block ≠ rhs.block
  solution_inside : solution.Inside store
  solution_length : solution.length = n
  solution_apart : solution.overlaps rhs = false

namespace Workspace

/-- Nothing is shared, and the outputs are blank. -/
def fresh (d : Dense α) (b : Fin n → α) : Workspace d b where
  store := ⟨#[d.data, Array.replicate d.data.size 0, Array.ofFn b, Array.replicate n 0]⟩
  copy := ⟨d.rows, d.cols, 0, d.strict⟩
  out := ⟨d.rows, d.cols, 1, true⟩
  rhs := ⟨2, 0, n⟩
  solution := ⟨3, 0, n⟩
  copy_view := rfl
  out_rows := rfl
  out_cols := rfl
  out_size := Array.size_replicate
  out_apart := Nat.one_ne_zero
  rhs_inside := by simp [Window.Inside, Store.block]
  rhs_contents := by simp [Window.contents, Store.block]
  rhs_apart := (Nat.succ_ne_zero 1).symm
  solution_inside := by simp [Window.Inside, Store.block]
  solution_length := rfl
  solution_apart := by simp [Window.overlaps]

/-- Whichever way the matrix is factored and the factors are asked, the outcome is `o`. -/
structure Agree (w : Workspace d b) (tol : α) (o : Except Nat (Answers α)) : Prop where
  factors_copied : (factorize tol (some (.dense d))).Says (o.map (·.factors))
  factors_inPlace : (afterwards (StoredMatrix.factorizeInPlace tol (some w.copy) w.store)
    StoredFactors.view).Says (o.map (·.factors))
  determinant_copied : (determinant tol (some (.dense d))).Says (o.map (·.determinant))
  determinant_inPlace :
    (StoredMatrix.determinantInPlace tol (some w.copy) w.store).1.Says (o.map (·.determinant))
  determinant_factors : (factorize tol (some (.dense d)) >>= fun f =>
    Result.ofFaulty f.determinant).Says (o.map (·.determinant))
  inverse_copied : (inverse tol (some (.dense d))).Says (o.map (·.inverse))
  inverse_inPlace : (afterwards (StoredMatrix.inverseInPlace tol (some w.copy) (some w.out) w.store)
    fun _ t => t.block w.out.block).Says (o.map (·.inverse.data))
  inverse_factors : (factorize tol (some (.dense d)) >>= fun f =>
    Result.ofFaulty f.inverse).Says (o.map (·.inverse))
  inverse_into : (factorize tol (some (.dense d)) >>= fun f =>
    let (g, s) := w.store.keepFactors f
    afterwards (g.inverseInto (some w.out) s) fun _ t => t.block w.out.block).Says
      (o.map (·.inverse.data))
  solution_copied :
    (solve tol (some (.dense d)) (some (Array.ofFn b))).Says (o.map (·.solution))
  solution_factors : (factorize tol (some (.dense d)) >>= fun f =>
    f.solve (some (Array.ofFn b))).Says (o.map (·.solution))
  solution_into : (factorize tol (some (.dense d)) >>= fun f =>
    let (g, s) := w.store.keepFactors f
    afterwards (g.solveInto (some w.solution) (some w.rhs) s) fun _ t => w.solution.contents t).Says
      (o.map (·.solution))

/-- The buffer of the copy. -/
def raw (w : Workspace d b) : Window :=
  w.copy.window w.store

/-- The same for flat buffers. -/
structure AgreeFlat (w : Workspace d b) (o : Except Nat (Answers α)) : Prop where
  factors : (afterwards (Flat.decompose (some w.raw) (Int64.ofNat n) w.store) fun order t =>
    (⟨n, w.raw.contents t, order⟩ : Factors α)).Says (o.map (·.factors))
  determinant :
    (Flat.determinant (some w.raw) (Int64.ofNat n) w.store).1.Says (o.map (·.determinant))
  inverse : (afterwards (Flat.inverse (some w.raw) (some (w.out.window w.store)) (Int64.ofNat n) w.store)
    fun _ t => (w.out.window w.store).contents t).Says (o.map (·.inverse.data))
  solution : ((Flat.decompose (some w.raw) (Int64.ofNat n) w.store).1 >>= fun order =>
    Flat.solve (some w.raw) (some order) (some w.rhs) (Int64.ofNat n)
      (Flat.decompose (some w.raw) (Int64.ofNat n) w.store).2).Says (o.map (·.solution))

variable {A : Matrix (Fin n) (Fin n) α} {tol : α} {o : Except Nat (Answers α)} (w : Workspace d b)
  (hd : d.Shows A)

include hd

omit [Scalar α] in
theorem copy_shows : (w.copy.view w.store).Shows A := by
  rw [w.copy_view]
  exact hd

theorem out_shows : (w.out.view w.store).Shows
    (Matrix.of fun i j : Fin n => cellAt (w.store.block w.out.block) (i * n + j)) :=
  ⟨hd.fits, w.out_rows.trans hd.rows, w.out_cols.trans hd.cols,
    .of_cellAt (w.out_size.trans hd.data.size) fun _ _ => rfl⟩

/-! ## Factors kept in the same store -/

variable {a : Answers α} (h : a.Hold tol A b)

include h

theorem inverseInto_kept :
    ∃ t, (w.store.keepFactors a.factors).1.inverseInto (some w.out) (w.store.keepFactors a.factors).2 =
      (.ok (), t) ∧ t.block w.out.block = a.inverse.data := by
  have hpos : 0 < (w.store.block w.out.block).size := by
    rw [w.out_size, hd.data.size]
    exact Nat.mul_pos hd.fits.rows_pos hd.fits.rows_pos
  have hold := Store.lt_blocks_of_lt_size hpos
  have hout := w.out_shows hd
  rw [StoredMatrix.view, ← Store.block_keepFactors_of_lt a.factors hold] at hout
  exact h.inverseInto (w.store.view_keepFactors a.factors) hout (Nat.ne_of_lt hold)

theorem solveInto_kept :
    ∃ t, (w.store.keepFactors a.factors).1.solveInto (some w.solution) (some w.rhs)
      (w.store.keepFactors a.factors).2 = (.ok (), t) ∧ w.solution.contents t = a.solution := by
  have hpos := hd.fits.rows_pos
  have hlength := Window.length_of_contents w.rhs_inside w.rhs_contents
  have hroom : 0 < w.solution.length := w.solution_length.symm ▸ hpos
  obtain ⟨hrhs, hcontents⟩ := w.rhs_inside.keepFactors (hlength.symm ▸ hpos) a.factors
  obtain ⟨hsolution, -⟩ := w.solution_inside.keepFactors hroom a.factors
  exact h.solveInto (w.store.view_keepFactors a.factors) hrhs (hcontents.trans w.rhs_contents)
    hsolution w.solution_length (Nat.ne_of_lt (w.solution_inside.lt_blocks hroom)) w.solution_apart

/-! ## Agreement -/

omit h

variable [Scalar.Ordered α]

theorem agreeFlat (hzero : Scalar.atMost (0 : α) 0 = true) (ho : Answered 0 A b o) : w.AgreeFlat o := by
  have hraw : w.raw.Holds w.store n (entryAt A) := StoredMatrix.holds_window (w.copy_shows hd)
  refine ⟨ho.flatDecompose hzero hd.fits hraw (StoredMatrix.length_window (w.copy_shows hd)),
    ho.flatDeterminant hzero hd.fits hraw, ?_, ?_⟩
  · exact ho.flatInverse hzero hd.fits hraw (Window.inside_whole w.store w.out.block)
      (StoredMatrix.length_window (w.out_shows hd)) (Window.overlaps_of_block_ne w.out_apart)
  · exact ho.flatSolve hzero hd.fits hraw w.rhs_inside w.rhs_contents
      (Window.overlaps_of_block_ne w.rhs_apart)

variable (htol : Scalar.atMost 0 tol = true) (ho : Answered tol A b o)
  (hf : (factorize tol (some (.dense d))).Says (o.map (·.factors)))

include htol ho hf

theorem agree : w.Agree tol o where
  factors_copied := hf
  factors_inPlace := ho.factorizeInPlace_view htol (w.copy_shows hd)
  determinant_copied := ho.determinant hf
  determinant_inPlace := ho.determinantInPlace htol (w.copy_shows hd)
  determinant_factors := hf.bind fun a ha => congrArg Result.ofFaulty (ho.hold ha).determinant
  inverse_copied := ho.inverse hf
  inverse_inPlace := ho.inverseInPlace htol (w.copy_shows hd) (w.out_shows hd) w.out_apart
  inverse_factors := hf.bind fun a ha => congrArg Result.ofFaulty (ho.hold ha).inverse
  inverse_into := hf.bind fun a ha => by
    obtain ⟨t, ht, hblock⟩ := w.inverseInto_kept hd (ho.hold ha)
    rw [← hblock]
    exact congrArg (afterwards · fun _ t => t.block w.out.block) ht
  solution_copied := ho.solve hf hd.operand
  solution_factors := hf.bind fun a ha => (ho.hold ha).solution
  solution_into := hf.bind fun a ha => by
    obtain ⟨t, ht, hcontents⟩ := w.solveInto_kept hd (ho.hold ha)
    rw [← hcontents]
    exact congrArg (afterwards · fun _ t => w.solution.contents t) ht

end Workspace

/-- Under any accepted settings, all ways to factor a matrix, to take its determinant and its inverse
and to solve for a right-hand side have one outcome: the same numbers, or a singular matrix with the
same column. Flat buffers join them when the pivot tolerance is zero. -/
theorem entry_points_agree {A : Matrix (Fin n) (Fin n) Float} {d : Dense Float} {b : Fin n → Float}
    {choices : List (Option Setting)} {settings : Settings} (hd : d.Shows A)
    (hset : Settings.make choices = .ok settings) (w : Workspace d b) :
    ∃ o : Except Nat (Answers Float), w.Agree settings.pivotTolerance o ∧
      ((settings.pivotTolerance == 0) = true → w.AgreeFlat o) := by
  have htol := Setting.zero_atMost (Settings.isTolerance_of_make hset)
  obtain ⟨o, ho, hf⟩ := exists_answered hd.operand htol b
  refine ⟨o, w.agree hd htol ho hf, fun hzero => w.agreeFlat hd rfl (ho.of_tolerance ?_)⟩
  -- The tolerance may be the negative zero, which no comparison tells from zero.
  exact Binary64.atMost_of_beq_zero hzero

theorem entry_points_agree_two_rows :
    Settings.make [none, some (.pivotTolerance (-0)), some (.strict false)] =
      .ok { pivotTolerance := -0, strict := false } ∧
    ∃ o, (Workspace.fresh (.ofMatrix !![0, 1; 2, 0 / 0]) ![3, 1 / 0]).Agree (-0 : Float) o ∧
      (Workspace.fresh (.ofMatrix !![0, 1; 2, 0 / 0]) ![3, 1 / 0]).AgreeFlat o := by
  have hset : Settings.make [none, some (.pivotTolerance (-0)), some (.strict false)] =
      .ok { pivotTolerance := -0, strict := false } := rfl
  obtain ⟨o, hagree, hflat⟩ := entry_points_agree
    (Dense.shows_ofMatrix ⟨by decide, by decide, by decide⟩ !![(0 : Float), 1; 2, 0 / 0]) hset
    (.fresh _ ![3, 1 / 0])
  exact ⟨hset, o, hagree, hflat rfl⟩

end PivotedLU
