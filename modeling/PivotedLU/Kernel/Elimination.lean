import PivotedLU.Cells
import PivotedLU.Loop
import PivotedLU.RowOrder

/-!
# Elimination with row pivoting

Overwrites the `n × n` block of a row-major run of cells with its factors: the multipliers of the
unit lower factor below the diagonal, the upper factor on and above it.
-/

namespace PivotedLU.Kernel

variable {σ α : Type} [Scalar α]

/-- A candidate row for a pivot and the magnitude found there. -/
structure Pivot (α : Type) where
  size : α
  row : Nat

/-- The first row from `i` on whose entry in column `i` has the largest magnitude. -/
@[specialize] def pivot (a : Reader σ α) (n i : Nat) (s : σ) : Except Fault (Pivot α) :=
  Loop.up i n (fun k best => do
    let v ← a s (k * n + i)
    let size := Scalar.magnitude v
    return if Scalar.less best.size size then ⟨size, k⟩ else best) ⟨0, i⟩

/-- Exchanges two whole rows. -/
@[specialize] def exchangeRows (a : Cells σ α) (n r t : Nat) (s : σ) : Except Fault σ :=
  Loop.up 0 n (fun c s => do
    let x ← a.read s (r * n + c)
    let y ← a.read s (t * n + c)
    let s ← a.write s (r * n + c) y
    a.write s (t * n + c) x) s

/-- Stores the multiplier of row `j` in column `i` and updates the rest of the row. -/
@[specialize] def clearRow (a : Cells σ α) (n i j : Nat) (s : σ) : Except Fault σ := do
  let head ← a.read s (j * n + i)
  let diagonal ← a.read s (i * n + i)
  let s ← a.write s (j * n + i) (head / diagonal)
  Loop.up (i + 1) n (fun k s => do
    let v ← a.read s (j * n + k)
    let multiplier ← a.read s (j * n + i)
    let u ← a.read s (i * n + k)
    a.write s (j * n + k) (v - multiplier * u)) s

/-- Clears column `i` below the diagonal. -/
@[specialize] def clearBelow (a : Cells σ α) (n i : Nat) (s : σ) : Except Fault σ :=
  Loop.up (i + 1) n (clearRow a n i) s

/-- Where an elimination ended: the column without a usable pivot if there was one, the cells and
the row order. -/
structure Elimination (σ : Type) where
  stopped : Option Nat
  state : σ
  order : RowOrder

/-- Eliminates `count` columns from column `i` on; stops at a column with no entry above `tol`. -/
@[specialize] def columns (a : Cells σ α) (n : Nat) (tol : α) :
    Nat → Nat → σ → RowOrder → Except Fault (Elimination σ)
  | _, 0, s, p => .ok ⟨none, s, p⟩
  | i, count + 1, s, p => do
    let best ← pivot a.read n i s
    if Scalar.atMost best.size tol then
      return ⟨some i, s, p⟩
    else if best.row = i then do
      let s ← clearBelow a n i s
      columns a n tol (i + 1) count s p
    else do
      let p ← p.exchange i best.row
      let s ← exchangeRows a n i best.row s
      let p ← p.count n
      let s ← clearBelow a n i s
      columns a n tol (i + 1) count s p

/-- Factors the block in place; what the record held before does not matter. -/
@[specialize] def decompose (a : Cells σ α) (n : Nat) (p : RowOrder) (tol : α) (s : σ) :
    Except Fault (Elimination σ) :=
  columns a n tol 0 n s p.reset

/-- Whether one of `count` entries of column `i` from row `k` on has a magnitude above `tol`. -/
@[specialize] def hasPivot (a : Reader σ α) (n i : Nat) (tol : α) (s : σ) :
    Nat → Nat → Except Fault Bool
  | _, 0 => .ok false
  | k, count + 1 => do
    let v ← a s (k * n + i)
    if Scalar.less tol (Scalar.magnitude v) then return true
    else hasPivot a n i tol s (k + 1) count

/-- The first of `count` columns from `i` on that has no entry above `tol` on or below the
diagonal. -/
@[specialize] def degenerateFrom (a : Reader σ α) (n : Nat) (tol : α) (s : σ) :
    Nat → Nat → Except Fault (Option Nat)
  | _, 0 => .ok none
  | i, count + 1 => do
    if ← hasPivot a n i tol s i (n - i) then degenerateFrom a n tol s (i + 1) count
    else return some i

/-- The column at which an elimination stopped, read off what it left. -/
@[specialize] def degenerateColumn (a : Reader σ α) (n : Nat) (tol : α) (s : σ) :
    Except Fault (Option Nat) :=
  degenerateFrom a n tol s 0 n

end PivotedLU.Kernel
