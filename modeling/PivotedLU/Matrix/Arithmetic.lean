import PivotedLU.Kernel.Diagonal
import PivotedLU.Kernel.Product
import PivotedLU.Kernel.Transposition
import PivotedLU.Matrix.Check
import PivotedLU.Matrix.Operand

/-!
# Arithmetic of matrices

Operations that leave their arguments alone and give new matrices or numbers.
-/

namespace PivotedLU

variable {α : Type} [Scalar α]

/-- The sum of the diagonal of a square matrix. -/
@[specialize] def trace (m : Option (Operand α)) : Result α := Result.of .trace do
  match ← Check.isSquare m with
  | .dense d => Result.ofFaulty (Kernel.trace (Reader.fixed d.data) d.rows ())
  | .foreign f =>
    Loop.up 0 f.shape.rows.toNatClampNeg (fun i (t : α) => do
      let v ← f.ask i i
      return t + v) 0

/-- The transpose. That of a dense matrix is as strict as the matrix. -/
@[specialize] def transpose (m : Option (Operand α)) : Result (Dense α) := Result.of .transpose do
  let m ← Check.isPresent m
  let out ← Dense.zeros ⟨m.shape.cols, m.shape.rows⟩
  match m with
  | .dense d =>
    let data ← Result.ofFaulty
      (Kernel.transposeInto (Reader.fixed d.data) Cells.array d.rows d.cols out.data)
    return { out with data, strict := d.strict }
  | .foreign f =>
    let rows := f.shape.rows.toNatClampNeg
    let data ← Loop.up 0 rows (fun i data =>
      Loop.up 0 f.shape.cols.toNatClampNeg (fun j data => do
        let v ← f.ask i j
        Result.ofFaulty (Cells.array.write data (j * rows + i) v)) data) out.data
    return { out with data }

/-- The product of two matrices. -/
@[specialize] def multiply (a b : Option (Operand α)) : Result (Dense α) := Result.of .multiply do
  let (a, b) ← Check.areMultipliable a b
  let out ← Dense.zeros ⟨a.shape.rows, b.shape.cols⟩
  let x ← a.flatten
  let y ← b.flatten
  let data ← Result.ofFaulty (Kernel.product (Reader.fixed x) (Reader.fixed y) Cells.array
    a.rowCount a.colCount b.colCount out.data)
  return { out with data }

/-- The identity matrix. -/
@[specialize] def identity (n : Int64) : Result (Dense α) := Result.of .identity do
  let out ← Dense.zeros ⟨n, n⟩
  let data ← Result.ofFaulty (Loop.up 0 n.toNatClampNeg (fun i data =>
    Cells.array.write data (i * n.toNatClampNeg + i) 1) out.data)
  return { out with data }

/-- Whether two entries differ by at most `atol + rtol · |y|`. -/
@[inline] def close (rtol atol x y : α) : Bool :=
  Scalar.atMost (Scalar.magnitude (x - y)) (atol + rtol * Scalar.magnitude y)

/-- Whether every entry is close to the one at its place in the second list, which must not be
shorter. -/
@[specialize] def closeEntries (rtol atol : α) : List α → List α → Except Fault Bool
  | [], _ => .ok true
  | _ :: _, [] => .error .outOfBounds
  | u :: us, v :: vs => if close rtol atol u v then closeEntries rtol atol us vs else .ok false

/-- Whether two matrices have the same shape and close entries. -/
@[specialize] def allClose (a b : Option (Operand α)) (rtol atol : α) : Result Bool := do
  let a ← Check.isPresent a
  let b ← Check.isPresent b
  if a.shape ≠ b.shape then return false
  else do
    let x ← a.flatten
    let y ← b.flatten
    Result.ofFaulty (closeEntries rtol atol x.toList y.toList)

end PivotedLU
