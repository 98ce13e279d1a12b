import PivotedLU.Kernel.Product
import PivotedLU.Kernel.Transposition
import PivotedLU.Stored.Elimination

/-!
# Flat buffers

Operations on the `n × n` block at the start of windows of a store. Every argument is checked
before a cell is touched.
-/

namespace PivotedLU.Flat

variable {α : Type} [Scalar α]

/-- A window that is there and has room for an `n × n` block. -/
def block (w : Option Window) (n : Int64) : Result Window := do
  Check.holdsSquare (w.map (·.length)) n
  return w.getD .empty

/-- The cells of an `n × n` block. -/
def area (w : Window) (n : Int64) : Window :=
  w.take (n * n).toNatClampNeg

/-- Factors a block in place on behalf of some routine. -/
def eliminate (name : Routine) (a : Option Window) (n : Int64) (s : Store α) :
    Result RowOrder × Store α :=
  match Result.of name (block a n) with
  | .error f => (.error f, s)
  | .ok a =>
    match a.eliminate 0 n.toNatClampNeg s with
    | (.ok order, t) => (.ok order, t)
    | (.error f, t) => (.error (f.within (.routine name)), t)

/-- Factors a block in place and gives its row order. -/
def decompose (a : Option Window) (n : Int64) (s : Store α) : Result RowOrder × Store α :=
  eliminate .flatDecompose a n s

/-- What `solve` asks of its arguments. -/
def checkSolve (a : Option Window) (p : Option RowOrder) (b : Option Window) (n : Int64) :
    Result (Window × RowOrder × Window) := Result.of .flatSolve do
  let a ← block a n
  let p := p.getD ⟨#[]⟩
  if (p.entries.size : Int) ≠ (n + 1).toInt then .fail .dimensionMismatch
  else if !(← Result.ofFaulty p.isValid) then .fail .badShape
  else
    match b with
    | none => .fail .absent
    | some b =>
      if (b.length : Int) < n.toInt then .fail .dimensionMismatch
      else return (a, p, b)

/-- The solution for one right-hand side from factors in place. -/
def solve (a : Option Window) (p : Option RowOrder) (b : Option Window) (n : Int64) (s : Store α) :
    Result (Array α) := do
  let (a, p, b) ← checkSolve a p b n
  Result.ofFaulty (Kernel.solve (a.reader s) p (b.reader s) n.toNatClampNeg Cells.array
    (Array.replicate n.toNatClampNeg 0))

/-- What `inverse` asks of its arguments. -/
def checkInverse (a ia : Option Window) (n : Int64) : Result (Window × Window) :=
  Result.of .flatInverse do
    let a ← block a n
    let ia ← block ia n
    (area ia n).noAlias [area a n]
    return (a, ia)

/-- Factors `a` in place and writes its inverse into `ia`. -/
def inverse (a ia : Option Window) (n : Int64) (s : Store α) : Result Unit × Store α :=
  match checkInverse a ia n with
  | .error f => (.error f, s)
  | .ok (a, ia) =>
    match eliminate .flatInverse (some a) n s with
    | (.error f, t) => (.error f, t)
    | (.ok order, t) => t.commit (Kernel.invert a.cells.read order n.toNatClampNeg ia.cells t)

/-- The determinant of a block, which is factored in place. -/
def determinant (a : Option Window) (n : Int64) (s : Store α) : Result α × Store α :=
  match eliminate .flatDeterminant a n s with
  | (.error f, t) => (.error f, t)
  | (.ok order, t) =>
    (Result.ofFaulty (Kernel.determinant (a.getD .empty).cells.read order n.toNatClampNeg t), t)

/-- The sum of the diagonal of a block. -/
def trace (a : Option Window) (n : Int64) (s : Store α) : Result α := do
  let a ← Result.of .flatTrace (block a n)
  Result.ofFaulty (Kernel.trace a.cells.read n.toNatClampNeg s)

/-- Transposes a block in place. -/
def transpose (a : Option Window) (n : Int64) (s : Store α) : Result Unit × Store α :=
  match Result.of .flatTranspose (block a n) with
  | .error f => (.error f, s)
  | .ok a => s.commit (Kernel.transpose a.cells n.toNatClampNeg s)

/-- What `multiply` asks of its arguments. -/
def checkMultiply (x y r : Option Window) (n : Int64) : Result (Window × Window × Window) :=
  Result.of .flatMultiply do
    let x ← block x n
    let y ← block y n
    let r ← block r n
    (area r n).noAlias [area x n, area y n]
    return (x, y, r)

/-- Writes the product of two blocks, which may share cells, into a third one, which may not. -/
def multiply (x y r : Option Window) (n : Int64) (s : Store α) : Result Unit × Store α :=
  match checkMultiply x y r n with
  | .error f => (.error f, s)
  | .ok (x, y, r) =>
    s.commit (Kernel.multiply x.cells.read y.cells.read r.cells n.toNatClampNeg s)

end PivotedLU.Flat
