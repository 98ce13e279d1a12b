import PivotedLU.Cells
import PivotedLU.Loop
import PivotedLU.RowOrder

/-!
# Along the diagonal
-/

namespace PivotedLU.Kernel

variable {σ α : Type} [Scalar α]

/-- The sum of the diagonal, starting at zero. -/
@[specialize] def trace (a : Reader σ α) (n : Nat) (s : σ) : Except Fault α :=
  Loop.up 0 n (fun i (t : α) => do
    let v ← a s (i * n + i)
    return t + v) 0

/-- The product of the diagonal of the upper factor, with the sign of the row order. -/
@[specialize] def determinant (a : Reader σ α) (p : RowOrder) (n : Nat) (s : σ) :
    Except Fault α := do
  let first ← a s 0
  let det ← Loop.up 1 n (fun i (d : α) => do
    let v ← a s (i * n + i)
    return d * v) first
  let sign ← p.sign
  return det * sign

end PivotedLU.Kernel
