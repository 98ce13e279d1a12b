import PivotedLU.Proofs.Factors.Outcome

/-!
# Larger tolerances

Up to the first column that the larger one of two tolerances refuses, both runs make the same steps.
So what it factors the smaller one factors alike, and it stops no later.
-/

namespace PivotedLU

variable {α : Type} [Scalar α] {n k k' : Nat} {tol tol' : α} {A : Matrix (Fin n) (Fin n) α}
  {m : Operand α} {f g : Factors α} {π π' : Equiv.Perm (Fin n)}

theorem Factors.Factored.unique (h : f.Factored tol A π k) (h' : g.Factored tol A π' k') : f = g := by
  obtain ⟨-, hlu, horder⟩ := Kernel.Elimination.mk.inj (h.ended.eq_of_size h'.ended h.size h'.size)
  cases f
  cases g
  simp only [Factors.mk.injEq]
  exact ⟨h.dim.trans h'.dim.symm, hlu, horder⟩

variable [Scalar.Ordered α] (hA : m.Shows A) (hzero : Scalar.atMost 0 tol = true)
  (hle : Scalar.atMost tol tol' = true)

include hA hzero hle

theorem factorize_ok_of_larger (h : factorize tol' (some m) = .ok f) :
    factorize tol (some m) = .ok f := by
  obtain ⟨π, k, hf⟩ := factored_of_factorize hA h
  have hsmaller := hf.of_tolerance fun x hx => Scalar.Ordered.atMost_trans hx hle
  rcases factorize_cases hA hzero with ⟨g, π', k', hok, hg⟩ | ⟨c, e, π', k', -, hend, hc⟩
  · rw [hok, hg.unique hsmaller]
  · -- A complete run does not get past the column where the smaller tolerance stops.
    have hcolumns := hend.le_stopped hsmaller.table
    rw [hc, Option.getD_some] at hcolumns
    omega

theorem factorize_error_of_smaller {c : Nat}
    (h : factorize tol (some m) = .error (.error ⟨[.routine .factorize, .column c], .singular⟩)) :
    ∃ c' ≤ c, factorize tol' (some m) =
      .error (.error ⟨[.routine .factorize, .column c'], .singular⟩) := by
  rcases factorize_cases hA hzero with ⟨f, -, -, hok, -⟩ | ⟨c₀, e, π, k, herror, hend, hc⟩
  · rw [hok] at h
    cases h
  obtain rfl : (c₀ : Nat) = c := by
    rw [herror] at h
    simpa using h
  have hzero' := Scalar.Ordered.atMost_trans hzero hle
  rcases factorize_cases hA hzero' with ⟨f, -, -, hok, -⟩ | ⟨c', e', π', k', herror', hend', hc'⟩
  · rw [factorize_ok_of_larger hA hzero hle hok] at h
    cases h
  · have hcolumns := hend.le_stopped
      (hend'.table.of_tolerance fun x hx => Scalar.Ordered.atMost_trans hx hle)
    rw [hc, hc', Option.getD_some, Option.getD_some] at hcolumns
    exact ⟨c', hcolumns, herror'⟩

omit hA hzero hle

/-- Of two tolerances, the smaller one factors every matrix of numbers that the larger one factors, to
the same factors with the same row order; and where the smaller one stops at a column, the larger one
stops there or before. -/
theorem factorize_monotone {A : Matrix (Fin n) (Fin n) Float} {m : Operand Float} {tol tol' : Float}
    (hA : m.Shows A) (hzero : 0 ≤ tol) (hle : tol ≤ tol') :
    (∀ f, factorize tol' (some m) = .ok f → factorize tol (some m) = .ok f) ∧
    ∀ c : Nat, factorize tol (some m) =
        .error (.error ⟨[.routine .factorize, .column c], .singular⟩) →
      ∃ c' ≤ c, factorize tol' (some m) =
        .error (.error ⟨[.routine .factorize, .column c'], .singular⟩) := by
  have hzero : Scalar.atMost 0 tol = true := decide_eq_true hzero
  have hle : Scalar.atMost tol tol' = true := decide_eq_true hle
  exact ⟨fun f => factorize_ok_of_larger hA hzero hle,
    fun c => factorize_error_of_smaller hA hzero hle⟩

/-- An infinite entry, and a NaN that only the smaller tolerance meets as a pivot. -/
theorem factorize_monotone_infinite_nan :
    factorize (0 : Float) (some (.dense (.ofMatrix !![1, 2; 1 / 0, 4]))) =
      .ok ⟨2, #[1 / 0, 4, 0, 2], ⟨#[1, 0, 3]⟩⟩ ∧
    ∃ c' ≤ (1 : Nat), factorize (3 : Float) (some (.dense (.ofMatrix !![0 / 0, 1; 2, 4]))) =
      .error (.error ⟨[.routine .factorize, .column c'], .singular⟩) := by
  have hok : factorize (0.5 : Float) (some (.dense (.ofMatrix !![1, 2; 1 / 0, 4]))) =
      .ok ⟨2, #[1 / 0, 4, 0, 2], ⟨#[1, 0, 3]⟩⟩ := by decide +kernel
  have herror : factorize (0 : Float) (some (.dense (.ofMatrix !![0 / 0, 1; 2, 4]))) =
      .error (.error ⟨[.routine .factorize, .column (1 : Nat)], .singular⟩) := by decide +kernel
  have hfits : Fits 2 2 := ⟨by decide, by decide, by decide⟩
  exact ⟨(factorize_monotone (Dense.shows_ofMatrix hfits _).operand (by decide) (by decide)).1 _ hok,
    (factorize_monotone (Dense.shows_ofMatrix hfits _).operand (by decide) (by decide)).2 1 herror⟩

end PivotedLU
