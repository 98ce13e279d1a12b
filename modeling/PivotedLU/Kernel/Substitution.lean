import PivotedLU.Cells
import PivotedLU.Loop
import PivotedLU.RowOrder

/-!
# Substitution

Forward and backward substitution through the factors that an elimination left in place.
-/

namespace PivotedLU.Kernel

variable {σ α : Type} [Scalar α]

/-- Solves for one right-hand side `b` into `x`: row `i` starts from entry `p i` of `b`. -/
@[specialize] def solve (a : Reader σ α) (p : RowOrder) (b : Reader σ α) (n : Nat) (x : Cells σ α)
    (s : σ) : Except Fault σ := do
  let s ← Loop.up 0 n (fun i s => do
    let source ← p.entry i
    let start ← b.at s source
    let s ← x.write s i start
    Loop.up 0 i (fun k s => do
      let v ← x.read s i
      let multiplier ← a s (i * n + k)
      let known ← x.read s k
      x.write s i (v - multiplier * known)) s) s
  Loop.down (fun i s => do
    let s ← Loop.up (i + 1) n (fun k s => do
      let v ← x.read s i
      let u ← a s (i * n + k)
      let known ← x.read s k
      x.write s i (v - u * known)) s
    let v ← x.read s i
    let diagonal ← a s (i * n + i)
    x.write s i (v / diagonal)) n s

/-- Writes the inverse column by column into `ia`. -/
@[specialize] def invert (a : Reader σ α) (p : RowOrder) (n : Nat) (ia : Cells σ α) (s : σ) :
    Except Fault σ :=
  Loop.up 0 n (fun j s => do
    let s ← Loop.up 0 n (fun i s => do
      let source ← p.entry i
      let s ← ia.write s (i * n + j) (if source.toInt = (j : Int) then 1 else 0)
      Loop.up 0 i (fun k s => do
        let v ← ia.read s (i * n + j)
        let multiplier ← a s (i * n + k)
        let known ← ia.read s (k * n + j)
        ia.write s (i * n + j) (v - multiplier * known)) s) s
    Loop.down (fun i s => do
      let s ← Loop.up (i + 1) n (fun k s => do
        let v ← ia.read s (i * n + j)
        let u ← a s (i * n + k)
        let known ← ia.read s (k * n + j)
        ia.write s (i * n + j) (v - u * known)) s
      let v ← ia.read s (i * n + j)
      let diagonal ← a s (i * n + i)
      ia.write s (i * n + j) (v / diagonal)) n s) s

end PivotedLU.Kernel
