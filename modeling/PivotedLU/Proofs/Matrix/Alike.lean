import Mathlib.LinearAlgebra.Matrix.Notation
import Mathlib.Tactic.FinCases
import PivotedLU.Factors
import PivotedLU.Matrix.Arithmetic
import PivotedLU.Matrix.Residual
import PivotedLU.Matrix.Text
import PivotedLU.Proofs.Matrix.View

/-!
# Matrices that answer alike

Operations take the entries of a dense matrix from its array and ask any other matrix for them one
by one. What they answer depends on the shape and the entries only.
-/

namespace PivotedLU

variable {σ α β : Type}

/-! ## Loops that cannot fail in more than one way -/

theorem Result.ofFaulty_up (lo hi : Nat) (step : Nat → σ → Except Fault σ) (s : σ) :
    Result.ofFaulty (Loop.up lo hi step s) =
      Loop.up lo hi (fun i s => Result.ofFaulty (step i s)) s := by
  induction hd : hi - lo generalizing lo s with
  | zero => rw [Loop.up_of_le (by omega), Loop.up_of_le (by omega), Result.ofFaulty]
  | succ d ih =>
      rw [Loop.up_succ (by omega), Loop.up_succ (by omega)]
      cases step lo s with
      | error fault => rfl
      | ok s' => exact ih (lo + 1) s' (by omega)

/-! ## Operands alike -/

/-- Two matrices of one shape that give the same entries. -/
structure Operand.Alike (m m' : Operand α) : Prop where
  shape : m.shape = m'.shape
  rowCount : m.rowCount = m'.rowCount
  colCount : m.colCount = m'.colCount
  flatten : m.flatten = m'.flatten

namespace Operand

variable {m m' : Operand α} {a a' b b' : Option (Operand α)}

theorem Alike.refl (m : Operand α) : m.Alike m :=
  ⟨rfl, rfl, rfl, rfl⟩

theorem Shows.alike {r c : Nat} {A : Matrix (Fin r) (Fin c) α} (h : m.Shows A) (h' : m'.Shows A) :
    m.Alike m' := by
  obtain ⟨data, hdata, hrows⟩ := h.flatten
  obtain ⟨data', hdata', hrows'⟩ := h'.flatten
  refine ⟨h.shape.trans h'.shape.symm, h.rowCount.trans h'.rowCount.symm,
    h.colCount.trans h'.colCount.symm, ?_⟩
  rw [hdata, hdata', hrows.unique hrows']

/-- An argument that is not there is alike to itself only. -/
def AlikeOrAbsent (a a' : Option (Operand α)) : Prop :=
  Option.Rel Alike a a'

theorem AlikeOrAbsent.refl (a : Option (Operand α)) : AlikeOrAbsent a a := by
  cases a with
  | none => exact .none
  | some m => exact .some (.refl m)

/-! ## Checks -/

theorem Shows.isSquare_error {r c : Nat} {A : Matrix (Fin r) (Fin c) α} (h : m.Shows A) (hne : r ≠ c) :
    Check.isSquare (some m) = .error (.error ⟨[.check .square], .dimensionMismatch⟩) := by
  have hshape : HasShape.shape m = ⟨Int64.ofNat r, Int64.ofNat c⟩ := h.shape
  have hwords : Int64.ofNat r ≠ Int64.ofNat c :=
    (ofNat_inj h.fits.rows_lt h.fits.cols_lt).not.mpr hne
  simp only [Check.isSquare, Check.isPresent, Check.tag, Result.within, bind, Except.bind, hshape,
    ne_eq, hwords, not_false_eq_true, if_true]
  rfl

theorem Alike.isSquare (h : m.Alike m') :
    (∃ e, Check.isSquare (some m) = .error e ∧ Check.isSquare (some m') = .error e) ∨
      Check.isSquare (some m) = .ok m ∧ Check.isSquare (some m') = .ok m' := by
  have hshape : HasShape.shape m = HasShape.shape m' := h.shape
  simp only [Check.isSquare, Check.isPresent, Check.tag, Result.within, bind, Except.bind, hshape]
  split
  · exact .inl ⟨_, rfl, rfl⟩
  · exact .inr ⟨rfl, rfl⟩

theorem AlikeOrAbsent.isPresent (h : AlikeOrAbsent a a') :
    (∃ e, Check.isPresent a = .error e ∧ Check.isPresent a' = .error e) ∨
      ∃ m m', Check.isPresent a = .ok m ∧ Check.isPresent a' = .ok m' ∧ m.Alike m' := by
  cases h with
  | none => exact .inl ⟨_, rfl, rfl⟩
  | some h => exact .inr ⟨_, _, rfl, rfl, h⟩

theorem AlikeOrAbsent.areMultipliable (ha : AlikeOrAbsent a a') (hb : AlikeOrAbsent b b') :
    (∃ e, Check.areMultipliable a b = .error e ∧ Check.areMultipliable a' b' = .error e) ∨
      ∃ x x' y y', Check.areMultipliable a b = .ok (x, y) ∧
        Check.areMultipliable a' b' = .ok (x', y') ∧ x.Alike x' ∧ y.Alike y' := by
  simp only [Check.areMultipliable]
  rcases ha.isPresent with ⟨e, hx, hx'⟩ | ⟨x, x', hx, hx', hxx⟩
  · exact .inl ⟨_, by rw [hx]; rfl, by rw [hx']; rfl⟩
  rcases hb.isPresent with ⟨e, hy, hy'⟩ | ⟨y, y', hy, hy', hyy⟩
  · exact .inl ⟨_, by rw [hx, hy]; rfl, by rw [hx', hy']; rfl⟩
  have hcols : (HasShape.shape x).cols = (HasShape.shape x').cols := congrArg Shape.cols hxx.shape
  have hrows : (HasShape.shape y).rows = (HasShape.shape y').rows := congrArg Shape.rows hyy.shape
  simp only [hx, hx', hy, hy', Check.tag, Result.within, bind, Except.bind, hcols, hrows]
  split
  · exact .inl ⟨_, rfl, rfl⟩
  · exact .inr ⟨x, x', y, y', rfl, rfl, hxx, hyy⟩

/-! ## Operations that take all entries first -/

section

variable [Scalar α]

theorem Alike.factorize (h : m.Alike m') (tol : α) :
    factorize tol (some m) = factorize tol (some m') := by
  unfold PivotedLU.factorize
  rcases h.isSquare with ⟨e, hm, hm'⟩ | ⟨hm, hm'⟩
  · rw [hm, hm']
  · simp only [hm, hm', bind, Except.bind, h.flatten, h.rowCount]

theorem Alike.solve (h : m.Alike m') (tol : α) (v : Option (Array α)) :
    solve tol (some m) v = solve tol (some m') v := by
  unfold PivotedLU.solve
  rw [h.factorize tol]
  rcases h.isSquare with ⟨e, hm, hm'⟩ | ⟨hm, hm'⟩
  · rw [hm, hm']
  · simp only [hm, hm', Result.of, Result.within, bind, Except.bind, h.shape]

theorem AlikeOrAbsent.multiply (ha : AlikeOrAbsent a a') (hb : AlikeOrAbsent b b') :
    multiply a b = multiply a' b' := by
  unfold PivotedLU.multiply
  rcases ha.areMultipliable hb with ⟨e, h, h'⟩ | ⟨x, x', y, y', h, h', hx, hy⟩
  · rw [h, h']
  · simp only [h, h', bind, Except.bind, hx.shape, hx.flatten, hx.rowCount, hx.colCount, hy.shape,
      hy.flatten, hy.colCount]

theorem AlikeOrAbsent.allClose (ha : AlikeOrAbsent a a') (hb : AlikeOrAbsent b b') (rtol atol : α) :
    allClose a b rtol atol = allClose a' b' rtol atol := by
  unfold PivotedLU.allClose
  rcases ha.isPresent with ⟨e, hx, hx'⟩ | ⟨x, x', hx, hx', hxx⟩
  · rw [hx, hx']
    rfl
  rcases hb.isPresent with ⟨e, hy, hy'⟩ | ⟨y, y', hy, hy', hyy⟩
  · rw [hx, hy, hx', hy']
    rfl
  · simp only [hx, hx', hy, hy', bind, Except.bind, hxx.shape, hxx.flatten, hyy.shape, hyy.flatten]

end

variable {d d' : Operand Float}

theorem Alike.identityResidual (h : d.Alike d') :
    identityResidual (some d) = identityResidual (some d') := by
  unfold PivotedLU.identityResidual
  rcases h.isSquare with ⟨e, hm, hm'⟩ | ⟨hm, hm'⟩
  · rw [hm, hm']
  · simp only [hm, hm', bind, Except.bind, h.flatten, h.rowCount]

theorem Alike.isIdentity (h : d.Alike d') (settings : Settings) :
    isIdentity (some d) settings = isIdentity (some d') settings := by
  simp only [PivotedLU.isIdentity, Check.isPresent, bind, Except.bind, h.shape, h.identityResidual]

theorem Alike.latex (h : d.Alike d') (places : Int64) :
    latex (some d) places = latex (some d') places := by
  simp only [PivotedLU.latex, Check.isPresent, bind, Except.bind, h.flatten, h.rowCount, h.colCount]

end Operand

/-! ## Operations that take the entries on the way -/

section

variable [Scalar α] {r c : Nat} {A : Matrix (Fin r) (Fin c) α} {d : Dense α} {f : Foreign α}

theorem Foreign.Shows.ask_eq (hf : f.Shows A) (hd : d.Shows A) {i j : Nat} (hi : i < r) (hj : j < c) :
    f.ask i j = Result.ofFaulty (Reader.fixed d.data () (i * c + j)) := by
  have hread := hd.data.fixed_shows (fun _ => True) (s := ()) trivial hi hj
  have hentry : entryAt A i j = A ⟨i, hi⟩ ⟨j, hj⟩ := entryAt_val A ⟨i, hi⟩ ⟨j, hj⟩
  rw [hread, hentry, Foreign.ask, hf.entry ⟨i, hi⟩ ⟨j, hj⟩]
  rfl

/-- A step of a loop that reads a cell, and the same step with the cell asked for. -/
theorem Foreign.Shows.ask_bind (hf : f.Shows A) (hd : d.Shows A) {i j : Nat} (hi : i < r) (hj : j < c)
    (next : α → Except Fault β) :
    (f.ask i j >>= fun v => Result.ofFaulty (next v)) =
      Result.ofFaulty (Reader.fixed d.data () (i * c + j) >>= next) := by
  rw [hf.ask_eq hd hi hj]
  cases Reader.fixed d.data () (i * c + j) with
  | error fault => rfl
  | ok v => rfl

theorem Foreign.Shows.trace (hf : f.Shows A) (hd : d.Shows A) :
    trace (some (.foreign f)) = trace (some (.dense d)) := by
  have hforeign : (Operand.foreign f).Shows A := hf
  unfold PivotedLU.trace
  rcases eq_or_ne r c with rfl | hne
  · rw [hforeign.isSquare, hd.operand.isSquare]
    simp only [bind, Except.bind]
    rw [Kernel.trace, Result.ofFaulty_up, hd.rows, hf.shape,
      Int64.toNatClampNeg_ofNat_of_lt hf.fits.rows_lt]
    refine congrArg _ (Loop.up_congr (fun i t _ hi => ?_) _)
    exact hf.ask_bind hd hi hi fun v => .ok (t + v)
  · rw [hforeign.isSquare_error hne, hd.operand.isSquare_error hne]

theorem Foreign.Shows.transpose (hf : f.Shows A) (hd : d.Shows A) : transpose (some (.foreign f)) =
    (transpose (some (.dense d))).map ({ · with strict := true }) := by
  have hshape : d.shape = ⟨Int64.ofNat r, Int64.ofNat c⟩ := hd.operand.shape
  have hloops : ∀ data : Array α, Loop.up 0 r (fun i data => Loop.up 0 c (fun j data => do
      let v ← f.ask i j
      Result.ofFaulty (Cells.array.write data (j * r + i) v)) data) data =
        Result.ofFaulty (Kernel.transposeInto (Reader.fixed d.data) Cells.array r c data) := by
    intro data
    -- The same cells are written in the same order; only the way to an entry differs.
    rw [Kernel.transposeInto, Result.ofFaulty_up]
    refine Loop.up_congr (fun i data _ hi => ?_) data
    rw [Result.ofFaulty_up]
    exact Loop.up_congr (fun j data _ hj => hf.ask_bind hd hi hj _) data
  simp only [PivotedLU.transpose, Check.isPresent, bind, Except.bind, hshape, Operand.shape, hf.shape,
    hd.fits.symm.zeros, hd.rows, hd.cols, Int64.toNatClampNeg_ofNat_of_lt hf.fits.rows_lt,
    Int64.toNatClampNeg_ofNat_of_lt hf.fits.cols_lt]
  simp only [bind, Except.bind] at hloops
  rw [hloops]
  cases Kernel.transposeInto (Reader.fixed d.data) Cells.array r c (Array.replicate (c * r) 0) with
  | error fault => rfl
  | ok data => rfl

end

/-! ## The two ways to take a matrix -/

/-- A dense matrix may be replaced by any other one of its shape and entries: every operation gives
the same value or the same error. Only the transpose forgets whether the matrix was strict. -/
theorem dense_foreign_agree {r c : Nat} {A : Matrix (Fin r) (Fin c) Float} {d : Dense Float}
    {f : Foreign Float} (hd : d.Shows A) (hf : f.Shows A) :
    (∀ tol, factorize tol (some (.foreign f)) = factorize tol (some (.dense d))) ∧
    (∀ tol b, solve tol (some (.foreign f)) b = solve tol (some (.dense d)) b) ∧
    (∀ tol, inverse tol (some (.foreign f)) = inverse tol (some (.dense d))) ∧
    (∀ tol, determinant tol (some (.foreign f)) = determinant tol (some (.dense d))) ∧
    trace (some (.foreign f)) = trace (some (.dense d)) ∧
    transpose (some (.foreign f)) = (transpose (some (.dense d))).map ({ · with strict := true }) ∧
    (∀ b, multiply (some (.foreign f)) b = multiply (some (.dense d)) b) ∧
    (∀ a, multiply a (some (.foreign f)) = multiply a (some (.dense d))) ∧
    (∀ b rtol atol, allClose (some (.foreign f)) b rtol atol = allClose (some (.dense d)) b rtol atol) ∧
    (∀ a rtol atol, allClose a (some (.foreign f)) rtol atol = allClose a (some (.dense d)) rtol atol) ∧
    (∀ settings, isIdentity (some (.foreign f)) settings = isIdentity (some (.dense d)) settings) ∧
    identityResidual (some (.foreign f)) = identityResidual (some (.dense d)) ∧
    ∀ places, latex (some (.foreign f)) places = latex (some (.dense d)) places := by
  have hforeign : (Operand.foreign f).Shows A := hf
  have h : (Operand.foreign f).Alike (.dense d) := hforeign.alike hd.operand
  have harg : Operand.AlikeOrAbsent (some (.foreign f)) (some (.dense d)) := .some h
  refine ⟨h.factorize, h.solve, fun tol => ?_, fun tol => ?_, hf.trace hd, hf.transpose hd,
    fun b => harg.multiply (.refl b), fun a => (Operand.AlikeOrAbsent.refl a).multiply harg,
    fun b rtol atol => harg.allClose (.refl b) rtol atol,
    fun a rtol atol => (Operand.AlikeOrAbsent.refl a).allClose harg rtol atol,
    h.isIdentity, h.identityResidual, h.latex⟩
  · rw [inverse, inverse, h.factorize tol]
  · rw [determinant, determinant, h.factorize tol]

theorem dense_foreign_agree_two_rows :
    (Dense.ofMatrix !![1, 0 / 0, -0; 1 / 0, 5, (6 : Float)]).Shows !![1, 0 / 0, -0; 1 / 0, 5, 6] ∧
    (Foreign.ofTable ⟨2, 3⟩ #[1, 0 / 0, -0, 1 / 0, 5, (6 : Float)] none).Shows
      !![1, 0 / 0, -0; 1 / 0, 5, 6] ∧
    (∀ b, multiply (some (.foreign (.ofTable ⟨2, 3⟩ #[1, 0 / 0, -0, 1 / 0, 5, 6] none))) b =
      multiply (some (.dense (.ofMatrix !![1, 0 / 0, -0; 1 / 0, 5, (6 : Float)]))) b) ∧
    trace (some (.foreign (.ofTable ⟨2, 3⟩ #[1, 0 / 0, -0, 1 / 0, 5, 6] none))) =
      trace (some (.dense (.ofMatrix !![1, 0 / 0, -0; 1 / 0, 5, (6 : Float)]))) := by
  have hd := Dense.shows_ofMatrix ⟨by decide, by decide, by decide⟩
    !![1, 0 / 0, -0; 1 / 0, 5, (6 : Float)]
  have hf : (Foreign.ofTable ⟨2, 3⟩ #[1, 0 / 0, -0, 1 / 0, 5, (6 : Float)] none).Shows
      !![1, 0 / 0, -0; 1 / 0, 5, 6] := by
    refine ⟨hd.fits, rfl, fun i j => ?_⟩
    fin_cases i <;> fin_cases j <;> rfl
  obtain ⟨-, -, -, -, htrace, -, hmultiply, -⟩ := dense_foreign_agree hd hf
  exact ⟨hd, hf, hmultiply, htrace⟩

end PivotedLU
