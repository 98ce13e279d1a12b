import PivotedLU.Cells
import PivotedLU.Loop

/-!
# Transposition
-/

namespace PivotedLU.Kernel

variable {σ α : Type}

/-- Transposes the `n × n` block in place. -/
@[specialize] def transpose (a : Cells σ α) (n : Nat) (s : σ) : Except Fault σ :=
  Loop.up 0 n (fun i s => Loop.up (i + 1) n (fun j s => do
    let x ← a.read s (i * n + j)
    let y ← a.read s (j * n + i)
    let s ← a.write s (i * n + j) y
    a.write s (j * n + i) x) s) s

/-- Writes the transpose of a `rows × cols` block into other cells. -/
@[specialize] def transposeInto (src : Reader σ α) (dst : Cells σ α) (rows cols : Nat) (s : σ) :
    Except Fault σ :=
  Loop.up 0 rows (fun i s => Loop.up 0 cols (fun j s => do
    let v ← src s (i * cols + j)
    dst.write s (j * rows + i) v) s) s

end PivotedLU.Kernel
