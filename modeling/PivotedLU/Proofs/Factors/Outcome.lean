import PivotedLU.Proofs.Elimination.Pivots
import PivotedLU.Proofs.Factors.Factorization

/-!
# Outcomes of a factorization

A factorization succeeds, or it names the column at which elimination stopped. It never faults.
-/

namespace PivotedLU

variable {σ α : Type} [Scalar α]

/-- The row order of an elimination that went through, or the error of the column that stopped it. -/
def Kernel.Elimination.answer (e : Kernel.Elimination σ) : Result RowOrder :=
  match e.stopped with
  | none => .ok e.order
  | some c => .error (singularAt (some c))

variable [Scalar.Ordered α] {n : Nat} {tol : α}

theorem Factors.ofBlock_eq {block : Array α} {A : Nat → Nat → α} (htol : Scalar.atMost 0 tol = true)
    (hsize : block.size = n * n) (hA : ∀ r < n, ∀ c < n, cellAt block (r * n + c) = A r c) :
    ∃ e π k, ofBlock tol n block = e.answer.map (⟨n, e.state, ·⟩) ∧ e.state.size = n * n ∧
      Kernel.Ended n tol A cellAt e π k := by
  have hcells := Cells.array_lawful (Nat.le_of_eq hsize.symm)
  obtain ⟨e, π, k, he, hkept, hend⟩ := Kernel.decompose_ok hcells tol (ChangedOnly.refl _ block)
    (RowOrder.size_identity n) hA
  refine ⟨e, π, k, ?_, hkept.size.trans hsize, hend⟩
  have hcolumn := hend.degenerateColumn_eq hcells hkept htol
  simp only [ofBlock, he, Result.ofFaulty, bind, Except.bind, hcolumn, Kernel.Elimination.answer]
  cases hstopped : e.stopped with
  | none => rfl
  | some c => rfl

variable {m : Operand α} {A : Matrix (Fin n) (Fin n) α}

theorem factorize_cases (hA : m.Shows A) (htol : Scalar.atMost 0 tol = true) :
    (∃ f π k, factorize tol (some m) = .ok f ∧ f.Factored tol A π k) ∨
    ∃ (c : Fin n) (e : Kernel.Elimination (Array α)) (π : Equiv.Perm (Fin n)) (k : Nat),
      factorize tol (some m) = .error (.error ⟨[.routine .factorize, .column c], .singular⟩) ∧
      Kernel.Ended n tol (entryAt A) cellAt e π k ∧ e.stopped = some c.val := by
  obtain ⟨block, hblock, hrows⟩ := hA.flatten
  obtain ⟨e, π, k, he, hsize, hend⟩ := Factors.ofBlock_eq htol hrows.size fun r hr c hc =>
    hrows.cellAt hr hc
  simp only [factorize, hA.isSquare, hblock, hA.rowCount, bind, Except.bind, he,
    Kernel.Elimination.answer]
  cases hstopped : e.stopped with
  | none =>
      have htable := hend.table
      rw [hstopped] at htable
      exact .inl ⟨_, π, k, rfl, hA.fits, rfl, hsize, hend.order, htable⟩
  | some c => exact .inr ⟨⟨c, (hend.stuck c hstopped).1⟩, e, π, k, rfl, hend, hstopped⟩

end PivotedLU
