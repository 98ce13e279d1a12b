import PivotedLU.Error
import PivotedLU.Matrix.Shape

/-!
# Checks

The conditions that operations put on their arguments, each with its name before the error. An
argument that is not there is `none`.
-/

namespace PivotedLU.Check

variable {μ ν : Type} [HasShape μ] [HasShape ν]

/-- Puts the name of the check before the errors of a result. -/
def tag {α : Type} (name : Check) (r : Result α) : Result α :=
  r.within (.check name)

/-- The argument is there. -/
def isPresent {μ : Type} : Option μ → Result μ
  | some m => .ok m
  | none => tag .present (.fail .absent)

/-- Both arguments are there and have the same shape. -/
def haveSameShape (a : Option μ) (b : Option ν) : Result (μ × ν) := do
  let a ← tag .sameShape (isPresent a)
  let b ← tag .sameShape (isPresent b)
  if (HasShape.shape a).rows ≠ (HasShape.shape b).rows then
    tag .sameRows (.fail .dimensionMismatch)
  else if (HasShape.shape a).cols ≠ (HasShape.shape b).cols then
    tag .sameColumns (.fail .dimensionMismatch)
  else return (a, b)

/-- The argument is there and has as many rows as columns. -/
def isSquare (m : Option μ) : Result μ := do
  let m ← tag .square (isPresent m)
  if (HasShape.shape m).rows ≠ (HasShape.shape m).cols then
    tag .square (.fail .dimensionMismatch)
  else return m

/-- Both arguments are there and the columns of the first match the rows of the second. -/
def areMultipliable (a : Option μ) (b : Option ν) : Result (μ × ν) := do
  let a ← tag .multipliable (isPresent a)
  let b ← tag .multipliable (isPresent b)
  if (HasShape.shape a).cols ≠ (HasShape.shape b).rows then
    tag .multipliable (.fail .dimensionMismatch)
  else return (a, b)

/-- A vector, known by its length, is there and has `n` entries. -/
def hasLength (length : Option Nat) (n : Int64) : Result Unit :=
  match length with
  | none => tag .vectorLength (.fail .absent)
  | some k =>
    if (k : Int) ≠ n.toInt then tag .vectorLength (.fail .dimensionMismatch) else .ok ()

/-- A buffer, known by its length, is there and has room for an `n × n` block. -/
def holdsSquare (length : Option Nat) (n : Int64) : Result Unit :=
  if n ≤ 0 ∨ Int64.maxValue / n < n then tag .flatSquare (.fail .badShape)
  else
    match length with
    | none => tag .flatSquare (.fail .absent)
    | some k =>
      if (k : Int) < (n * n).toInt then tag .flatSquare (.fail .dimensionMismatch) else .ok ()

end PivotedLU.Check
