import PivotedLU.Proofs.Factors.Filled
import PivotedLU.Proofs.Store
import PivotedLU.Stored.Elimination

/-!
# Causes of errors

Which causes the errors of a computation can have, and with which cause each check refuses its
arguments.
-/

namespace PivotedLU

variable {α β γ : Type}

/-! ## Errors that a computation can give -/

namespace Result

variable {r : Result β} {p q : Cause → Prop}

/-- Every error of the domain has one of these causes. -/
def ErrsOnly (r : Result β) (p : Cause → Prop) : Prop :=
  ∀ e : Error, r = .error (.error e) → p e.cause

theorem errsOnly_ok (v : β) (p : Cause → Prop) : ErrsOnly (.ok v) p := by
  rintro e ⟨⟩

theorem errsOnly_ofFaulty (x : Except Fault β) (p : Cause → Prop) : ErrsOnly (ofFaulty x) p := by
  intro e he
  cases x <;> cases he

namespace ErrsOnly

theorem within (frame : Frame) (h : r.ErrsOnly p) : (r.within frame).ErrsOnly p := by
  intro e he
  cases r with
  | ok v => cases he
  | error f =>
      cases f with
      | error e' =>
          cases he
          exact h e' rfl
      | refused _ => cases he
      | fault _ => cases he

theorem cast {f : Failure} (h : ErrsOnly (.error f : Result β) p) : ErrsOnly (.error f : Result γ) p := by
  rintro e ⟨⟩
  exact h e rfl

theorem bind {next : β → Result γ} (h : r.ErrsOnly p)
    (hnext : ∀ v, r = .ok v → (next v).ErrsOnly p) : (r >>= next).ErrsOnly p := by
  cases r with
  | ok v => exact hnext v rfl
  | error f => exact h.cast

theorem map (g : β → γ) (h : r.ErrsOnly p) : ErrsOnly (r.map g) p := by
  cases r with
  | ok v => exact errsOnly_ok _ _
  | error f => exact h.cast

theorem mono (h : r.ErrsOnly p) (hpq : ∀ c, p c → q c) : r.ErrsOnly q :=
  fun e he => hpq _ (h e he)

end ErrsOnly

theorem FailsWith.map {cause : Cause} (g : β → γ) (h : r.FailsWith cause) :
    FailsWith (r.map g) cause := by
  obtain ⟨path, rfl⟩ := h
  exact ⟨path, rfl⟩

end Result

theorem Loop.up_errsOnly {σ : Type} {step : Nat → σ → Result σ} {p : Cause → Prop}
    (hstep : ∀ i s, (step i s).ErrsOnly p) (lo hi : Nat) (s : σ) :
    Result.ErrsOnly (Loop.up lo hi step s) p := by
  unfold Loop.up
  induction hi - lo generalizing lo s with
  | zero => exact Result.errsOnly_ok s p
  | succ count ih =>
      rw [Loop.steps]
      split
      next s' _ => exact ih (lo + 1) s'
      next f hf =>
        rintro e ⟨⟩
        exact hstep lo s e hf

theorem Store.errsOnly_commit (s : Store α) (x : Except Fault (Store α)) (p : Cause → Prop) :
    (s.commit x).1.ErrsOnly p := by
  intro e he
  cases x <;> cases he

/-! ## Operands -/

namespace Operand

/-- A matrix known by its shape and entries, whose shape is empty or has too many places. -/
def Misshapen : Operand α → Prop
  | .dense _ => False
  | .foreign f => f.shape.isValid = false

/-- A matrix known by its entries, one of which is an error with this cause. -/
def Refuses (m : Operand α) (cause : Cause) : Prop :=
  ∃ f, m = .foreign f ∧ ∃ i j e, f.entry i j = .error e ∧ e.cause = cause

theorem flatten_of_misshapen {m : Operand α} (h : m.Misshapen) :
    m.flatten.FailsWith .invalidDimensions := by
  cases m with
  | dense d => exact h.elim
  | foreign f =>
      have h : f.shape.isValid = false := h
      rw [flatten, Foreign.flatten, h]
      exact Result.failsWith_fail _

theorem flatten_errsOnly {m : Operand α} (h : ¬ m.Misshapen) : m.flatten.ErrsOnly m.Refuses := by
  cases m with
  | dense d => exact Result.errsOnly_ok _ _
  | foreign f =>
      have hvalid : f.shape.isValid = true := Bool.of_not_eq_false h
      rw [flatten, Foreign.flatten, if_pos hvalid]
      refine Loop.up_errsOnly (fun i _ => Loop.up_errsOnly (fun j _ => ?_) _ _ _) _ _ _
      refine Result.ErrsOnly.bind ?_ fun v _ => Result.errsOnly_ok _ _
      intro e he
      rw [Foreign.ask] at he
      split at he
      next => cases he
      next e' hentry =>
        cases he
        exact ⟨f, rfl, _, _, e', hentry, rfl⟩

theorem flatten_cases (m : Operand α) :
    (∃ entries, m.flatten = .ok entries) ∨ ∃ cause, m.flatten.FailsWith cause := by
  cases m with
  | dense d => exact .inl ⟨d.data, rfl⟩
  | foreign f =>
      rcases f.flatten_gives with ⟨entries, h, -⟩ | ⟨e, h⟩
      · exact .inl ⟨entries, h⟩
      · exact .inr ⟨e.cause, e.path, h⟩

/-- The number of rows that an accepted shape reports is the number of rows there are. -/
theorem shape_rows {m : Operand α} (h : ¬ m.Misshapen) : m.shape.rows = Int64.ofNat m.rowCount := by
  cases m with
  | dense d => rfl
  | foreign f =>
      obtain ⟨r, c, hfits, hshape⟩ := Shape.exists_fits (Bool.of_not_eq_false h)
      simp only [shape, rowCount, hshape, Int64.toNatClampNeg_ofNat_of_lt hfits.rows_lt]

end Operand

/-! ## Checks -/

namespace Check

open Result

variable {μ ν : Type} [HasShape μ] [HasShape ν] {x : μ} {y : ν} {k : Nat} {n : Int64}

theorem isSquare_mismatch (h : (HasShape.shape x).rows ≠ (HasShape.shape x).cols) :
    (isSquare (some x)).FailsWith .dimensionMismatch := by
  simp only [isSquare, isPresent, tag, within, bind, Except.bind, if_pos h]
  exact (failsWith_fail _).within _

theorem isSquare_ok (h : (HasShape.shape x).rows = (HasShape.shape x).cols) :
    isSquare (some x) = .ok x := by
  simp only [isSquare, isPresent, tag, within, bind, Except.bind, if_neg (not_not.mpr h)]
  rfl

theorem areMultipliable_absent {a : Option μ} {b : Option ν} (h : a = none ∨ b = none) :
    (areMultipliable a b).FailsWith .absent := by
  cases a with
  | none => exact ⟨_, rfl⟩
  | some x =>
      cases b with
      | none => exact ⟨_, rfl⟩
      | some y => simp at h

theorem areMultipliable_mismatch (h : (HasShape.shape x).cols ≠ (HasShape.shape y).rows) :
    (areMultipliable (some x) (some y)).FailsWith .dimensionMismatch := by
  simp only [areMultipliable, isPresent, tag, within, bind, Except.bind, if_pos h]
  exact (failsWith_fail _).within _

theorem areMultipliable_ok (h : (HasShape.shape x).cols = (HasShape.shape y).rows) :
    areMultipliable (some x) (some y) = .ok (x, y) := by
  simp only [areMultipliable, isPresent, tag, within, bind, Except.bind, if_neg (not_not.mpr h)]
  rfl

theorem haveSameShape_mismatch (h : HasShape.shape x ≠ HasShape.shape y) :
    (haveSameShape (some x) (some y)).FailsWith .dimensionMismatch := by
  simp only [haveSameShape, isPresent, tag, within, bind, Except.bind]
  split
  next => exact (failsWith_fail _).within _
  next hrows =>
    split
    next => exact (failsWith_fail _).within _
    next hcols =>
      refine absurd ?_ h
      rw [Shape.mk.injEq]
      exact ⟨not_not.mp hrows, not_not.mp hcols⟩

theorem hasLength_mismatch (h : (k : Int) ≠ n.toInt) :
    (hasLength (some k) n).FailsWith .dimensionMismatch := by
  rw [hasLength, if_pos h]
  exact (failsWith_fail _).within _

theorem hasLength_ok (h : (k : Int) = n.toInt) : hasLength (some k) n = .ok () := by
  rw [hasLength, if_neg (not_not.mpr h)]

end Check

theorem Window.noAlias_aliased {w v : Window} {inputs : List Window} (hv : v ∈ inputs)
    (h : w.Shares v) : (w.noAlias inputs).FailsWith .aliasedOutput :=
  ⟨_, noAlias_of_shares hv h⟩

theorem StoredMatrix.checkMultiplyInto_ok {dst x y : StoredMatrix} {s : Store α}
    (hinner : x.shape.cols = y.shape.rows) (hshape : ¬ (dst.rows ≠ x.rows ∨ dst.cols ≠ y.cols))
    (hapart : ∀ v ∈ [x.window s, y.window s], ¬ (dst.window s).Shares v) :
    checkMultiplyInto (some dst) (some x) (some y) s = .ok (dst, x, y) := by
  rw [checkMultiplyInto, Check.areMultipliable_ok hinner]
  simp only [Check.isPresent, bind, Except.bind, if_neg hshape, Window.noAlias_of_apart hapart]
  rfl

/-! ## Elimination -/

variable [Scalar α]

theorem Factors.ofBlock_cases (tol : α) (n : Nat) (block : Array α) :
    (∃ f, ofBlock tol n block = .ok f ∧ f.n = n) ∨ (ofBlock tol n block).FailsWith .singular ∨
      ∃ fault, ofBlock tol n block = .error (.fault fault) := by
  unfold ofBlock
  cases Kernel.decompose Cells.array n (RowOrder.identity n) tol block with
  | error fault => exact .inr (.inr ⟨fault, rfl⟩)
  | ok e =>
      dsimp only [Result.ofFaulty, bind, Except.bind]
      cases e.stopped with
      | none => exact .inl ⟨_, rfl, rfl⟩
      | some c =>
          dsimp only
          cases Kernel.degenerateColumn Cells.array.read n tol e.state with
          | error fault => exact .inr (.inr ⟨fault, rfl⟩)
          | ok column => exact .inr (.inl ⟨_, rfl⟩)

theorem Factors.ofBlock_errsOnly (tol : α) (n : Nat) (block : Array α) :
    (ofBlock tol n block).ErrsOnly (· = .singular) := by
  intro e he
  rcases ofBlock_cases tol n block with ⟨f, hf, -⟩ | ⟨path, hf⟩ | ⟨fault, hf⟩
  · cases hf.symm.trans he
  · cases hf.symm.trans he
    rfl
  · cases hf.symm.trans he

theorem Window.eliminate_errsOnly (tol : α) (n : Nat) (w : Window) (s : Store α) :
    (w.eliminate tol n s).1.ErrsOnly (· = .singular) := by
  intro e he
  unfold eliminate at he
  split at he
  next => cases he
  next =>
    split at he
    next => cases he
    next =>
      split at he
      next => cases he
      next =>
        cases he
        rfl

end PivotedLU
