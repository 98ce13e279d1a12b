import PivotedLU.Proofs.Elimination.Pivots
import PivotedLU.Proofs.Magnitude

/-!
# Pivots of numbers

A complete run on numbers leaves a diagonal above the tolerance, so that it can be divided by; of a
run that stopped, the column can be found again in what it left.
-/

namespace PivotedLU

/-! ## Magnitudes -/

namespace Binary64

open Float.Model

variable {x : Float}

theorem place_abs_of_isNaN (h : x.isNaN = true) : place x.abs = none := by
  have habs : x.abs = Float.ofModel (pack x.toModel.unpack.abs) := rfl
  rw [habs, unpack_of_isNaN h]
  rfl

theorem abs_of_beq_zero (h : (x == 0) = true) : x.abs = 0 := by
  rcases beq_zero_iff.mp h with rfl | rfl
  · rfl
  · rfl

/-- What is above a tolerance in magnitude can be divided by. -/
theorem divisible_of_less_abs {tol : Float} (htol : Scalar.atMost 0 tol = true)
    (h : Scalar.less tol x.abs = true) : x.isNaN = false ∧ (x == 0) = false := by
  constructor
  · refine Bool.eq_false_iff.mpr fun hnan => ?_
    obtain ⟨a, b, -, hb, -⟩ := less_iff.mp h
    rw [place_abs_of_isNaN hnan] at hb
    cases hb
  · refine Bool.eq_false_iff.mpr fun hzero => ?_
    rw [abs_of_beq_zero hzero] at h
    exact Bool.eq_false_iff.mp (Scalar.Ordered.less_irrefl 0)
      (Scalar.Ordered.less_of_atMost_of_less htol h)

end Binary64

/-! ## Both ends of a run -/

namespace Kernel

variable {n : Nat}

/-- Whatever numbers the block holds, a complete run leaves a diagonal of numbers that are above the
tolerance in magnitude, none of them zero or a NaN, and no column without a pivot is found in it;
after a run that stopped, the column found is the one where it stopped. -/
theorem decompose_pivots_above {a : Array Float} {p : RowOrder} {tol : Float} (ha : n * n ≤ a.size)
    (hp : p.entries.size = n + 1) (htol : 0 ≤ tol) :
    ∃ e, decompose Cells.array n p tol a = .ok e ∧
      (e.stopped = none →
        (∀ i < n, ∃ v, e.state[i * n + i]? = some v ∧ tol < v.abs ∧ v.isNaN = false ∧
          (v == 0) = false) ∧
        degenerateColumn Cells.array.read n tol e.state = .ok none) ∧
      ∀ c, e.stopped = some c →
        c < n ∧ degenerateColumn Cells.array.read n tol e.state = .ok (some c) := by
  have htol : Scalar.atMost 0 tol = true := decide_eq_true htol
  have hcells := Cells.array_lawful ha
  obtain ⟨e, π, k, he, hkept, hend⟩ := decompose_ok hcells tol (.refl _ a) hp fun _ _ _ _ => rfl
  have hcolumn := hend.degenerateColumn_eq hcells hkept htol
  refine ⟨e, he, fun hdone => ⟨fun i hi => ?_, hdone ▸ hcolumn⟩, fun c hc =>
    ⟨(hend.stuck c hc).1, hc ▸ hcolumn⟩⟩
  have hlt : i * n + i < e.state.size :=
    Nat.lt_of_lt_of_le (place_lt hi hi) (hkept.size.symm ▸ ha)
  have hless := hend.table.less_pivot htol ⟨i, hi⟩ (by simpa [hdone] using hi)
  refine ⟨cellAt e.state (i * n + i), ?_, of_decide_eq_true hless,
    Binary64.divisible_of_less_abs htol hless⟩
  rw [cellAt_eq hlt, Array.getElem?_eq_getElem hlt]

/-- An infinite pivot carries a run to its end; a NaN leaves the second column without a pivot. -/
theorem decompose_pivots_above_infinite_nan :
    (∃ e, decompose Cells.array 2 ⟨#[7, 7, 7]⟩ (0.5 : Float) #[1, 2, 1 / 0, 4] = .ok e ∧
      e.stopped = none ∧ ∃ v, e.state[0]? = some v ∧ 0.5 < v.abs ∧ v.isNaN = false) ∧
    ∃ e, decompose Cells.array 2 ⟨#[7, 7, 7]⟩ (0.5 : Float) #[0 / 0, 1, 2, 4, 9] = .ok e ∧
      e.stopped = some 1 ∧ degenerateColumn Cells.array.read 2 0.5 e.state = .ok (some 1) := by
  have htol : (0 : Float) ≤ 0.5 := by decide
  obtain ⟨e, he, hdone, -⟩ := decompose_pivots_above (n := 2) (a := #[1, 2, 1 / 0, 4])
    (p := ⟨#[7, 7, 7]⟩) (by decide) (by decide) htol
  obtain ⟨e', he', -, hstop⟩ := decompose_pivots_above (n := 2) (a := #[0 / 0, 1, 2, 4, 9])
    (p := ⟨#[7, 7, 7]⟩) (by decide) (by decide) htol
  have hnone : e.stopped = none := by
    have hrun : (decompose Cells.array 2 ⟨#[7, 7, 7]⟩ (0.5 : Float) #[1, 2, 1 / 0, 4]).map
        (·.stopped) = .ok none := by decide +kernel
    rw [he] at hrun
    exact Except.ok.inj hrun
  have hone : e'.stopped = some 1 := by
    have hrun : (decompose Cells.array 2 ⟨#[7, 7, 7]⟩ (0.5 : Float) #[0 / 0, 1, 2, 4, 9]).map
        (·.stopped) = .ok (some 1) := by decide +kernel
    rw [he'] at hrun
    exact Except.ok.inj hrun
  obtain ⟨v, hv, habove, hnan, -⟩ := (hdone hnone).1 0 (by decide)
  exact ⟨⟨e, he, hnone, v, hv, habove, hnan⟩, e', he', hone, (hstop 1 hone).2⟩

end Kernel

end PivotedLU
