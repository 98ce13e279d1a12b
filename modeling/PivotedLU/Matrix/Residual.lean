import PivotedLU.Binary64
import PivotedLU.Matrix.Check
import PivotedLU.Matrix.Operand
import PivotedLU.Settings

/-!
# Distance from the identity
-/

namespace PivotedLU

/-- The largest entry of `|m - 1|` and its place in the row-major order. -/
structure Residual where
  worst : Float
  offset : Nat

/-- How far one entry is from that of the identity; a NaN is infinitely far. -/
def deviation (n k : Nat) (v : Float) : Except Fault Float :=
  if n = 0 then .error .zeroDivisor
  else
    let d := (if k / n = k % n then v - 1 else v).abs
    .ok (if d.isNaN then Binary64.infinity false else d)

/-- Keeps the first of the largest deviations. -/
def Residual.fold (n : Nat) : Nat → List Float → Residual → Except Fault Residual
  | _, [], r => .ok r
  | k, v :: vs, r => do
    let d ← deviation n k v
    fold n (k + 1) vs (if r.worst < d then ⟨d, k⟩ else r)

/-- The largest deviation of a square matrix from the identity. -/
def identityResidual (m : Option (Operand Float)) : Result Residual := Result.of .identity do
  let m ← Check.isSquare m
  let entries ← m.flatten
  Result.ofFaulty (Residual.fold m.rowCount 0 entries.toList ⟨0, 0⟩)

/-- Whether a matrix is square and within the tolerance of the identity. -/
def isIdentity (m : Option (Operand Float)) (settings : Settings) : Result Bool := do
  let present ← Check.isPresent m
  if present.shape.rows ≠ present.shape.cols then return false
  else do
    let r ← identityResidual m
    return r.worst ≤ settings.epsilon

end PivotedLU
