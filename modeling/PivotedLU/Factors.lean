import PivotedLU.Kernel.Diagonal
import PivotedLU.Kernel.Elimination
import PivotedLU.Kernel.Substitution
import PivotedLU.Matrix.Check
import PivotedLU.Matrix.Operand

/-!
# Factors of a matrix

The factors of a square matrix with its rows exchanged, and what they answer.
-/

namespace PivotedLU

variable {α : Type} [Scalar α]

/-- Both factors in one `n × n` block, and the row order. -/
structure Factors (α : Type) where
  n : Nat
  lu : Array α
  order : RowOrder
  deriving DecidableEq

/-- The error of a matrix without a usable pivot in some column. -/
def singularAt (column : Option Nat) : Failure :=
  .error ⟨[.column (column.elim (-1) Int.ofNat)], .singular⟩

namespace Factors

/-- Factors a block of entries. -/
@[specialize] def ofBlock (tol : α) (n : Nat) (block : Array α) : Result (Factors α) := do
  let e ← Result.ofFaulty (Kernel.decompose Cells.array n (RowOrder.identity n) tol block)
  match e.stopped with
  | none => return ⟨n, e.state, e.order⟩
  | some _ =>
    let column ← Result.ofFaulty (Kernel.degenerateColumn Cells.array.read n tol e.state)
    throw (singularAt column)

/-- An `n × n` block of zeros. -/
def blank (n : Nat) : Array α :=
  Array.replicate (n * n) 0

/-- A strict square matrix of the given entries. -/
def square (n : Nat) (data : Array α) : Dense α :=
  ⟨n, n, data, true⟩

/-- The unit lower factor. -/
@[specialize] def lower (f : Factors α) : Except Fault (Dense α) := do
  let data ← Loop.up 0 f.n (fun i data => do
    let data ← Loop.up 0 i (fun j data => do
      let v ← Cells.array.read f.lu (i * f.n + j)
      Cells.array.write data (i * f.n + j) v) data
    Cells.array.write data (i * f.n + i) 1) (blank f.n)
  return square f.n data

/-- The upper factor. -/
@[specialize] def upper (f : Factors α) : Except Fault (Dense α) := do
  let data ← Loop.up 0 f.n (fun i data =>
    Loop.up i f.n (fun j data => do
      let v ← Cells.array.read f.lu (i * f.n + j)
      Cells.array.write data (i * f.n + j) v) data) (blank f.n)
  return square f.n data

/-- The permutation matrix of the row order. -/
@[specialize] def permutation (f : Factors α) : Except Fault (Dense α) := do
  let data ← Loop.up 0 f.n (fun i data => do
    let source ← f.order.entry i
    let k := Int64.ofNat (i * f.n) + source
    if k < 0 then throw Fault.outOfBounds
    else Cells.array.write data k.toNatClampNeg 1) (blank f.n)
  return square f.n data

/-- The solution for one right-hand side. -/
@[specialize] def solve (f : Factors α) (b : Option (Array α)) : Result (Array α) := do
  Result.of .solve (Check.hasLength (b.map Array.size) (Int64.ofNat f.n))
  Result.ofFaulty (Kernel.solve (Reader.fixed f.lu) f.order (Reader.fixed (b.getD #[])) f.n
    Cells.array (Array.replicate f.n 0))

/-- The inverse of the factored matrix. -/
@[specialize] def inverse (f : Factors α) : Except Fault (Dense α) := do
  let data ← Kernel.invert (Reader.fixed f.lu) f.order f.n Cells.array (blank f.n)
  return square f.n data

/-- The determinant of the factored matrix. -/
@[specialize] def determinant (f : Factors α) : Except Fault α :=
  Kernel.determinant (Reader.fixed f.lu) f.order f.n ()

end Factors

/-- Factors a square matrix; fails at the first column without an entry above `tol`. -/
@[specialize] def factorize (tol : α) (m : Option (Operand α)) : Result (Factors α) := Result.of .factorize do
  let m ← Check.isSquare m
  let block ← m.flatten
  Factors.ofBlock tol m.rowCount block

/-- The solution of a system of equations. -/
@[specialize] def solve (tol : α) (m : Option (Operand α)) (b : Option (Array α)) : Result (Array α) := do
  let square ← Result.of .solve (Check.isSquare m)
  Result.of .solve (Check.hasLength (b.map Array.size) square.shape.rows)
  let f ← Result.of .solve (factorize tol m)
  f.solve b

/-- The inverse of a square matrix. -/
@[specialize] def inverse (tol : α) (m : Option (Operand α)) : Result (Dense α) := do
  let f ← Result.of .inverse (factorize tol m)
  Result.ofFaulty f.inverse

/-- The determinant of a square matrix. -/
@[specialize] def determinant (tol : α) (m : Option (Operand α)) : Result α := do
  let f ← Result.of .determinant (factorize tol m)
  Result.ofFaulty f.determinant

/-- The determinant as a caller is handed it: zero beside an error. -/
@[specialize] def handedDeterminant (tol : α) (m : Option (Operand α)) : Result (Handed α) :=
  (determinant tol m).handed 0

end PivotedLU
