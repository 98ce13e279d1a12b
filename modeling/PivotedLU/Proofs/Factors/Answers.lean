import PivotedLU.Proofs.Factors.Determinant
import PivotedLU.Proofs.Factors.Outcome
import PivotedLU.Proofs.Factors.Solution

/-!
# Answers of a factorization

Everything that is computed through factors is determined by the matrix, the right-hand side and the
tolerance, wherever the factors stand and wherever the answer is written. `Answered` says what the
answers are, or at which column there are none.
-/

namespace PivotedLU

variable {σ α β γ δ : Type}

/-! ## Results that name a column -/

/-- A result that is the value, or the error of a singular matrix that names the column. -/
def Result.Says (r : Result β) : Except Nat β → Prop
  | .ok v => r = .ok v
  | .error c => ∃ path, r = .error (.error ⟨path ++ [.column c], .singular⟩)

theorem Result.Says.within {r : Result β} {o : Except Nat β} (frame : Frame) (h : r.Says o) :
    (r.within frame).Says o := by
  cases o with
  | ok v => exact congrArg (Result.within frame) h
  | error c =>
      obtain ⟨path, rfl⟩ := h
      exact ⟨frame :: path, rfl⟩

theorem Result.Says.map {r : Result β} {o : Except Nat β} (f : β → γ) (h : r.Says o) :
    Result.Says (r.map f) (o.map f) := by
  cases o with
  | ok v => exact congrArg (Except.map f) h
  | error c =>
      obtain ⟨path, rfl⟩ := h
      exact ⟨path, rfl⟩

/-- A computation that starts from one of several answers and leads to another one. -/
theorem Result.Says.bind {r : Result β} {o : Except Nat δ} {g : δ → β} {g' : δ → γ}
    {next : β → Result γ} (h : r.Says (o.map g)) (hnext : ∀ a, o = .ok a → next (g a) = .ok (g' a)) :
    (r >>= next).Says (o.map g') := by
  cases o with
  | ok a =>
      have hr : r = .ok (g a) := h
      rw [hr]
      exact hnext a rfl
  | error c =>
      obtain ⟨path, rfl⟩ := h
      exact ⟨path, rfl⟩

variable [Scalar α] {n k : Nat} {tol : α} {A : Matrix (Fin n) (Fin n) α} {b : Fin n → α}
  {f : Factors α} {π : Equiv.Perm (Fin n)}

/-! ## Factors in other cells -/

namespace Factors

variable {a rhs : Reader σ α} {x : Cells σ α} {ok : σ → Prop} {get : σ → Nat → α} {s : σ}

theorem Factored.determinant_on (h : f.Factored tol A π k)
    (ha : ∀ i < n, a s (i * n + i) = .ok (cellAt f.lu (i * n + i))) :
    Kernel.determinant a f.order n s = f.determinant := by
  rw [h.determinant_ok]
  exact Kernel.determinant_ok (M := fun r c => cellAt f.lu (r * n + c)) h.fits.rows_pos ha h.order
    (Nat.lt_of_le_of_lt h.table.exchanges_le h.fits.rows_lt)

theorem Factored.solve_on (h : f.Factored tol A π k) {v : Array α}
    (hv : f.solve (some (Array.ofFn b)) = .ok v) (hx : x.Lawful n ok get)
    (ha : a.Shows n n ok fun r c => cellAt f.lu (r * n + c))
    (hrhs : ∀ s, ok s → ∀ i < n, rhs s i = .ok (cellAt (Array.ofFn b) i)) (hs : ok s) :
    ∃ t, Kernel.solve a f.order rhs n x s = .ok t ∧ ok t ∧ ∀ i < n, get t i = cellAt v i := by
  obtain ⟨v', hv', -, hsub⟩ := h.solve_ok b
  obtain rfl : v' = v := Except.ok.inj (hv'.symm.trans hv)
  obtain ⟨t, ht, hok, hsub'⟩ := Kernel.solve_ok hx ha (fun i hi => h.order.entry_rowAt hi) h.rowAt_lt
    (fun s hs i hi => hrhs s hs _ (RowOrder.rowAt_lt π hi)) hs
  exact ⟨t, ht, hok, hsub'.unique hsub⟩

theorem Factored.invert_on (h : f.Factored tol A π k) {d : Dense α} (hd : f.inverse = .ok d)
    (hx : x.Lawful (n * n) ok get) (ha : a.Shows n n ok fun r c => cellAt f.lu (r * n + c)) (hs : ok s) :
    ∃ t, Kernel.invert a f.order n x s = .ok t ∧ ok t ∧
      ∀ i < n, ∀ j < n, get t (i * n + j) = cellAt d.data (i * n + j) := by
  obtain ⟨d', hd', -, hsub⟩ := h.inverse_ok
  obtain rfl : d' = d := Except.ok.inj (hd'.symm.trans hd)
  obtain ⟨t, ht, hok, hsub'⟩ := Kernel.invert_ok hx ha (fun i hi => h.order.entry_rowAt hi) h.rowAt_lt hs
  exact ⟨t, ht, hok, fun i hi j hj => (hsub' j hj).unique (hsub j hj) i hi⟩

end Factors

/-! ## Answers -/

/-- What is computed from a matrix and a right-hand side through factors. -/
structure Answers (α : Type) where
  factors : Factors α
  determinant : α
  inverse : Dense α
  solution : Array α

/-- The answers for the matrix `A` and the right-hand side `b`. -/
structure Answers.Hold (a : Answers α) (tol : α) (A : Matrix (Fin n) (Fin n) α) (b : Fin n → α) :
    Prop where
  factored : ∃ π k, a.factors.Factored tol A π k
  determinant : a.factors.determinant = .ok a.determinant
  inverse : a.factors.inverse = .ok a.inverse
  solution : a.factors.solve (some (Array.ofFn b)) = .ok a.solution

/-- The answers, or the column at which elimination stops. -/
def Answered (tol : α) (A : Matrix (Fin n) (Fin n) α) (b : Fin n → α) : Except Nat (Answers α) → Prop
  | .ok a => a.Hold tol A b
  | .error c => ∃ (e : Kernel.Elimination (Array α)) (π : Equiv.Perm (Fin n)) (k : Nat),
      Kernel.Ended n tol (entryAt A) cellAt e π k ∧ e.stopped = some c

theorem Factors.Factored.answers (h : f.Factored tol A π k) (b : Fin n → α) :
    ∃ a : Answers α, a.factors = f ∧ a.Hold tol A b := by
  obtain ⟨d, hd, -⟩ := h.inverse_ok
  obtain ⟨v, hv, -⟩ := h.solve_ok b
  exact ⟨⟨f, _, d, v⟩, rfl, ⟨π, k, h⟩, h.determinant_ok, hd, hv⟩

theorem Answers.Hold.size_inverse {a : Answers α} (h : a.Hold tol A b) :
    a.inverse.data.size = n * n := by
  obtain ⟨π, k, hf⟩ := h.factored
  obtain ⟨d, hd, hshows, -⟩ := hf.inverse_ok
  rw [← Except.ok.inj (hd.symm.trans h.inverse)]
  exact hshows.data.size

theorem Answers.Hold.size_solution {a : Answers α} (h : a.Hold tol A b) : a.solution.size = n := by
  obtain ⟨π, k, hf⟩ := h.factored
  obtain ⟨v, hv, hsize, -⟩ := hf.solve_ok b
  rw [← Except.ok.inj (hv.symm.trans h.solution)]
  exact hsize

theorem Answered.hold {o : Except Nat (Answers α)} {a : Answers α} (ho : Answered tol A b o)
    (ha : o = .ok a) : a.Hold tol A b := by
  subst ha
  exact ho

theorem Answered.of_tolerance {o : Except Nat (Answers α)} {tol' : α}
    (htol : ∀ x, Scalar.atMost x tol = Scalar.atMost x tol') (ho : Answered tol A b o) :
    Answered tol' A b o := by
  cases o with
  | ok a =>
      obtain ⟨⟨π, k, hf⟩, hdet, hinv, hsol⟩ := ho
      exact ⟨⟨π, k, hf.of_tolerance fun x hx => (htol x).trans hx⟩, hdet, hinv, hsol⟩
  | error c =>
      obtain ⟨e, π, k, hend, hc⟩ := ho
      exact ⟨e, π, k, hend.of_tolerance htol, hc⟩

variable {m : Operand α}

/-- Factoring a matrix gives factors with all answers, or the column. -/
theorem exists_answered [Scalar.Ordered α] (hA : m.Shows A) (htol : Scalar.atMost 0 tol = true)
    (b : Fin n → α) :
    ∃ o, Answered tol A b o ∧ (factorize tol (some m)).Says (o.map (·.factors)) := by
  rcases factorize_cases hA htol with ⟨f, π, k, hok, hf⟩ | ⟨c, e, π, k, herror, hend, hc⟩
  · obtain ⟨a, rfl, ha⟩ := hf.answers b
    exact ⟨.ok a, ha, hok⟩
  · exact ⟨.error c, ⟨e, π, k, hend, hc⟩, [.routine .factorize], herror⟩

/-! ## Operations that leave the matrix alone -/

section

variable {o : Except Nat (Answers α)} (ho : Answered tol A b o)
  (hf : (factorize tol (some m)).Says (o.map (·.factors)))

include ho hf

theorem Answered.determinant : (determinant tol (some m)).Says (o.map (·.determinant)) := by
  refine (hf.within (.routine .determinant)).bind fun a ha => ?_
  rw [(ho.hold ha).determinant]
  rfl

theorem Answered.inverse : (inverse tol (some m)).Says (o.map (·.inverse)) := by
  refine (hf.within (.routine .inverse)).bind fun a ha => ?_
  rw [(ho.hold ha).inverse]
  rfl

theorem Answered.solve (hA : m.Shows A) :
    (solve tol (some m) (some (Array.ofFn b))).Says (o.map (·.solution)) := by
  have hlength : Check.hasLength ((some (Array.ofFn b)).map Array.size) m.shape.rows = .ok () := by
    rw [hA.shape, Option.map_some, Array.size_ofFn]
    exact Check.hasLength_eq hA.fits.rows_lt
  simp only [PivotedLU.solve, hA.isSquare, hlength, Result.of, Result.within, bind, Except.bind]
  exact (hf.within (.routine .solve)).bind fun a ha => (ho.hold ha).solution

end

end PivotedLU
