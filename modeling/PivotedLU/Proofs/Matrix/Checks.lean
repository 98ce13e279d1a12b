import PivotedLU.Matrix.Check
import PivotedLU.Proofs.Result

/-!
# What checks grant

A check hands its argument on together with what it tested, or it gives an error of the domain.
-/

namespace PivotedLU.Check

variable {μ ν : Type}

theorem isPresent_gives (m : Option μ) : (isPresent m).Gives fun a => m = some a := by
  cases m with
  | none => exact (Result.gives_fail _ _).within _
  | some a => exact Result.gives_ok rfl

variable [HasShape μ] [HasShape ν]

theorem isSquare_gives (m : Option μ) : (isSquare m).Gives fun a =>
    m = some a ∧ (HasShape.shape a).rows = (HasShape.shape a).cols := by
  refine ((isPresent_gives m).within _).bind fun a ha => ?_
  split
  next => exact (Result.gives_fail _ _).within _
  next h => exact Result.gives_ok ⟨ha, Decidable.not_not.mp h⟩

theorem haveSameShape_gives (a : Option μ) (b : Option ν) : (haveSameShape a b).Gives fun c =>
    a = some c.1 ∧ b = some c.2 ∧ HasShape.shape c.1 = HasShape.shape c.2 := by
  refine ((isPresent_gives a).within _).bind fun a' ha => ?_
  refine ((isPresent_gives b).within _).bind fun b' hb => ?_
  split
  next => exact (Result.gives_fail _ _).within _
  next hrows =>
    split
    next => exact (Result.gives_fail _ _).within _
    next hcols =>
      have hshape : HasShape.shape a' = HasShape.shape b' := by
        rw [Shape.mk.injEq]
        exact ⟨Decidable.not_not.mp hrows, Decidable.not_not.mp hcols⟩
      exact Result.gives_ok ⟨ha, hb, hshape⟩

theorem areMultipliable_gives (a : Option μ) (b : Option ν) : (areMultipliable a b).Gives fun c =>
    a = some c.1 ∧ b = some c.2 ∧ (HasShape.shape c.1).cols = (HasShape.shape c.2).rows := by
  refine ((isPresent_gives a).within _).bind fun a' ha => ?_
  refine ((isPresent_gives b).within _).bind fun b' hb => ?_
  split
  next => exact (Result.gives_fail _ _).within _
  next h => exact Result.gives_ok ⟨ha, hb, Decidable.not_not.mp h⟩

theorem hasLength_gives (length : Option Nat) (n : Int64) : (hasLength length n).Gives fun _ =>
    ∃ k, length = some k ∧ (k : Int) = n.toInt := by
  cases length with
  | none => exact (Result.gives_fail _ _).within _
  | some k =>
      rw [hasLength]
      split
      next => exact (Result.gives_fail _ _).within _
      next h => exact Result.gives_ok ⟨k, rfl, Decidable.not_not.mp h⟩

theorem holdsSquare_gives (length : Option Nat) (n : Int64) :
    (holdsSquare length n).Gives fun _ => True := by
  unfold holdsSquare
  split
  next => exact (Result.gives_fail _ _).within _
  next =>
    split
    next => exact (Result.gives_fail _ _).within _
    next =>
      split
      next => exact (Result.gives_fail _ _).within _
      next => exact Result.gives_ok trivial

end PivotedLU.Check
