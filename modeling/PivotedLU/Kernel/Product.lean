import PivotedLU.Cells
import PivotedLU.Loop
import PivotedLU.Scalar

/-!
# Products

One sum of products per cell of the result, added up from the left starting at zero.
-/

namespace PivotedLU.Kernel

variable {σ α : Type} [Scalar α]

/-- The product of two `n × n` blocks. -/
@[specialize] def multiply (x y : Reader σ α) (r : Cells σ α) (n : Nat) (s : σ) : Except Fault σ :=
  Loop.up 0 n (fun row s => Loop.up 0 n (fun col s => do
    let sum ← Loop.up 0 n (fun k (acc : α) => do
      let u ← x s (row * n + k)
      let v ← y s (k * n + col)
      return acc + u * v) 0
    r.write s (row * n + col) sum) s) s

/-- The product of a `rows × inner` and an `inner × cols` block. -/
@[specialize] def rectangular (x y : Reader σ α) (r : Cells σ α) (rows inner cols : Nat) (s : σ) :
    Except Fault σ :=
  Loop.up 0 rows (fun i s => Loop.up 0 cols (fun j s => do
    let sum ← Loop.up 0 inner (fun k (acc : α) => do
      let u ← x s (i * inner + k)
      let v ← y s (k * cols + j)
      return acc + u * v) 0
    r.write s (i * cols + j) sum) s) s

/-- The product of two blocks of fitting shapes. -/
@[inline] def product (x y : Reader σ α) (r : Cells σ α) (rows inner cols : Nat) (s : σ) :
    Except Fault σ :=
  if rows = inner ∧ inner = cols then multiply x y r rows s
  else rectangular x y r rows inner cols s

end PivotedLU.Kernel
