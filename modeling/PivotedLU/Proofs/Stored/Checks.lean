import PivotedLU.Proofs.Matrix.Checks
import PivotedLU.Proofs.Store

/-!
# What the checks of stored matrices grant

Shapes that fit together, and outputs that share no cell with an input.
-/

namespace PivotedLU

variable {α : Type}

theorem Window.noAlias_gives (w : Window) (inputs : List Window) :
    (w.noAlias inputs).Gives fun _ => ∀ v ∈ inputs, ¬ w.Shares v := by
  by_cases h : ∃ v ∈ inputs, w.Shares v
  · obtain ⟨v, hv, hshares⟩ := h
    exact .inr ⟨_, noAlias_of_shares hv hshares⟩
  · have hapart : ∀ v ∈ inputs, ¬ w.Shares v := fun v hv hshares => h ⟨v, hv, hshares⟩
    rw [noAlias_of_apart hapart]
    exact Result.gives_ok hapart

namespace StoredMatrix

theorem checkMultiplyInto_gives (dst a b : Option StoredMatrix) (s : Store α) :
    (checkMultiplyInto dst a b s).Gives fun c => dst = some c.1 ∧ a = some c.2.1 ∧ b = some c.2.2 ∧
      c.2.1.shape.cols = c.2.2.shape.rows ∧ c.1.rows = c.2.1.rows ∧ c.1.cols = c.2.2.cols ∧
      ¬ (c.1.window s).Shares (c.2.1.window s) ∧ ¬ (c.1.window s).Shares (c.2.2.window s) := by
  refine Result.Gives.within _ ((Check.areMultipliable_gives a b).bind fun c hc => ?_)
  obtain ⟨ha, hb, hinner⟩ := hc
  refine (Check.isPresent_gives dst).bind fun d hd => ?_
  split
  next => exact Result.gives_fail _ _
  next hshape =>
    obtain ⟨hrows, hcols⟩ := not_or.mp hshape
    refine (Window.noAlias_gives _ _).bind fun _ hapart => Result.gives_ok ?_
    exact ⟨hd, ha, hb, hinner, Decidable.not_not.mp hrows, Decidable.not_not.mp hcols,
      hapart _ (by simp), hapart _ (by simp)⟩

theorem checkInverseInPlace_gives (a dst : Option StoredMatrix) (s : Store α) :
    (checkInverseInPlace a dst s).Gives fun c => a = some c.1 ∧ dst = some c.2 ∧
      c.1.shape.rows = c.1.shape.cols ∧ c.1.shape = c.2.shape ∧
      ¬ (c.2.window s).Shares (c.1.window s) := by
  refine Result.Gives.within _ ((Check.isSquare_gives a).bind fun a' ha => ?_)
  refine (Check.haveSameShape_gives a dst).bind fun c hc => ?_
  refine (Window.noAlias_gives _ _).bind fun _ hapart => Result.gives_ok ?_
  obtain ⟨ha', hdst, hshape⟩ := hc
  cases ha.1.symm.trans ha'
  exact ⟨ha', hdst, ha.2, hshape, hapart _ (by simp)⟩

end StoredMatrix

namespace StoredFactors

theorem checkSolveInto_gives (f : StoredFactors) (x b : Option Window) :
    (f.checkSolveInto x b).Gives fun _ => ∃ u v, x = some u ∧ b = some v ∧
      (v.length : Int) = (Int64.ofNat f.n).toInt ∧ (u.length : Int) = (Int64.ofNat f.n).toInt ∧
      ¬ u.Shares v := by
  refine Result.Gives.within _ ((Check.hasLength_gives _ _).bind fun _ hb => ?_)
  refine (Check.hasLength_gives _ _).bind fun _ hx => (Window.noAlias_gives _ _).mono fun _ hapart => ?_
  obtain ⟨_, hb, hlength⟩ := hb
  obtain ⟨_, hx, hlength'⟩ := hx
  obtain ⟨v, rfl, rfl⟩ := Option.map_eq_some_iff.mp hb
  obtain ⟨u, rfl, rfl⟩ := Option.map_eq_some_iff.mp hx
  exact ⟨u, v, rfl, rfl, hlength, hlength', hapart v (by simp)⟩

theorem checkInverseInto_gives (f : StoredFactors) (dst : Option StoredMatrix) (s : Store α) :
    (f.checkInverseInto dst s).Gives fun d => dst = some d ∧ d.shape.rows = d.shape.cols ∧
      d.rows = f.n ∧ ¬ (d.window s).Shares (Window.whole s f.block) := by
  refine Result.Gives.within _ ((Check.isSquare_gives dst).bind fun d hd => ?_)
  split
  next => exact Result.gives_fail _ _
  next hrows =>
    refine (Window.noAlias_gives _ _).bind fun _ hapart => Result.gives_ok ?_
    exact ⟨hd.1, hd.2, Decidable.not_not.mp hrows, hapart _ (by simp)⟩

end StoredFactors

end PivotedLU
