import PivotedLU.Kernel.Product
import PivotedLU.Kernel.Transposition
import PivotedLU.Matrix.Check
import PivotedLU.Stored.Elimination

/-!
# Matrices in a store

Dense matrices whose entries fill a block of a store, and the operations that change them in place.
Each one checks its arguments first and touches the store only when they are in order.
-/

namespace PivotedLU

variable {α : Type}

/-- A dense matrix that fills a block. -/
structure StoredMatrix where
  rows : Nat
  cols : Nat
  block : Nat
  strict : Bool
  deriving DecidableEq, Repr

/-- Factors that fill a block, which a matrix may share. -/
structure StoredFactors where
  n : Nat
  block : Nat
  order : RowOrder
  deriving DecidableEq, Repr

namespace Store

/-- Keeps a dense matrix in a block of its own. -/
def keep (s : Store α) (d : Dense α) : StoredMatrix × Store α :=
  let (block, s) := s.alloc d.data
  (⟨d.rows, d.cols, block, d.strict⟩, s)

/-- Keeps factors in a block of their own. -/
def keepFactors (s : Store α) (f : Factors α) : StoredFactors × Store α :=
  let (block, s) := s.alloc f.lu
  (⟨f.n, block, f.order⟩, s)

end Store

namespace StoredMatrix

def shape (m : StoredMatrix) : Shape :=
  ⟨Int64.ofNat m.rows, Int64.ofNat m.cols⟩

instance : HasShape StoredMatrix := ⟨shape⟩

/-- The matrix as it stands in a store. -/
def view (m : StoredMatrix) (s : Store α) : Dense α :=
  ⟨m.rows, m.cols, s.block m.block, m.strict⟩

def window (m : StoredMatrix) (s : Store α) : Window :=
  Window.whole s m.block

variable [Scalar α]

/-- Writes one entry. -/
def set (m : StoredMatrix) (i j : Int64) (v : α) (s : Store α) : Result Unit × Store α :=
  match Dense.locateSet m.rows m.cols m.strict i j v with
  | .error f => (.error f, s)
  | .ok k => s.commit ((m.window s).cells.write s k v)

/-- Transposes a square matrix. -/
def transposeInPlace (m : Option StoredMatrix) (s : Store α) : Result Unit × Store α :=
  match Result.of .transpose (Check.isSquare m) with
  | .error f => (.error f, s)
  | .ok m => s.commit (Kernel.transpose (m.window s).cells m.rows s)

/-- What `multiplyInto` asks of its arguments. -/
def checkMultiplyInto (dst a b : Option StoredMatrix) (s : Store α) :
    Result (StoredMatrix × StoredMatrix × StoredMatrix) := Result.of .multiply do
  let (a, b) ← Check.areMultipliable a b
  let dst ← Check.isPresent dst
  if dst.rows ≠ a.rows ∨ dst.cols ≠ b.cols then .fail .dimensionMismatch
  else do
    (dst.window s).noAlias [a.window s, b.window s]
    return (dst, a, b)

/-- Writes a product into a matrix that shares no cell with the factors. -/
def multiplyInto (dst a b : Option StoredMatrix) (s : Store α) : Result Unit × Store α :=
  match checkMultiplyInto dst a b s with
  | .error f => (.error f, s)
  | .ok (dst, a, b) =>
    s.commit (Kernel.product (a.window s).cells.read (b.window s).cells.read (dst.window s).cells
      a.rows a.cols b.cols s)

/-- Factors a square matrix in its own block, which the factors then share. -/
def factorizeInPlace (tol : α) (m : Option StoredMatrix) (s : Store α) :
    Result StoredFactors × Store α :=
  match Result.of .factorize (Check.isSquare m) with
  | .error f => (.error f, s)
  | .ok m =>
    match (m.window s).eliminate tol m.rows s with
    | (.ok order, t) => (.ok ⟨m.rows, m.block, order⟩, t)
    | (.error f, t) => (.error (f.within (.routine .factorize)), t)

/-- What `inverseInPlace` asks of its arguments. -/
def checkInverseInPlace (a dst : Option StoredMatrix) (s : Store α) :
    Result (StoredMatrix × StoredMatrix) := Result.of .inverse do
  let _ ← Check.isSquare a
  let (a, dst) ← Check.haveSameShape a dst
  (dst.window s).noAlias [a.window s]
  return (a, dst)

/-- Factors `a` in place and writes its inverse into `dst`. -/
def inverseInPlace (tol : α) (a dst : Option StoredMatrix) (s : Store α) :
    Result Unit × Store α :=
  match checkInverseInPlace a dst s with
  | .error f => (.error f, s)
  | .ok (a, dst) =>
    match factorizeInPlace tol (some a) s with
    | (.error f, t) => (.error (f.within (.routine .inverse)), t)
    | (.ok f, t) =>
      t.commit (Kernel.invert (Window.whole t f.block).cells.read f.order f.n (dst.window t).cells t)

/-- The determinant of a square matrix, which is factored in place. -/
def determinantInPlace (tol : α) (m : Option StoredMatrix) (s : Store α) : Result α × Store α :=
  match factorizeInPlace tol m s with
  | (.error f, t) => (.error (f.within (.routine .determinant)), t)
  | (.ok f, t) =>
    (Result.ofFaulty (Kernel.determinant (Window.whole t f.block).cells.read f.order f.n t), t)

end StoredMatrix

namespace StoredFactors

/-- The factors as they stand in a store. -/
def view (f : StoredFactors) (s : Store α) : Factors α :=
  ⟨f.n, s.block f.block, f.order⟩

variable [Scalar α]

/-- What `solveInto` asks of its arguments. -/
def checkSolveInto (f : StoredFactors) (x b : Option Window) : Result Unit := Result.of .solve do
  Check.hasLength (b.map (·.length)) (Int64.ofNat f.n)
  Check.hasLength (x.map (·.length)) (Int64.ofNat f.n)
  (x.getD .empty).noAlias [b.getD .empty]

/-- Writes the solution for one right-hand side into a window. -/
def solveInto (f : StoredFactors) (x b : Option Window) (s : Store α) : Result Unit × Store α :=
  match checkSolveInto f x b with
  | .error e => (.error e, s)
  | .ok _ =>
    s.commit (Kernel.solve (Window.whole s f.block).cells.read f.order (b.getD .empty).cells.read
      f.n (x.getD .empty).cells s)

/-- What `inverseInto` asks of its arguments. -/
def checkInverseInto (f : StoredFactors) (dst : Option StoredMatrix) (s : Store α) :
    Result StoredMatrix := Result.of .inverse do
  let dst ← Check.isSquare dst
  if dst.rows ≠ f.n then .fail .dimensionMismatch
  else do
    (dst.window s).noAlias [Window.whole s f.block]
    return dst

/-- Writes the inverse into a matrix that shares no cell with the factors. -/
def inverseInto (f : StoredFactors) (dst : Option StoredMatrix) (s : Store α) :
    Result Unit × Store α :=
  match checkInverseInto f dst s with
  | .error e => (.error e, s)
  | .ok dst =>
    s.commit (Kernel.invert (Window.whole s f.block).cells.read f.order f.n (dst.window s).cells s)

end StoredFactors

end PivotedLU
