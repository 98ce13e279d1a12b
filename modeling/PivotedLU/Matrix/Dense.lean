import PivotedLU.Cells
import PivotedLU.Error
import PivotedLU.Matrix.Shape
import PivotedLU.Scalar

/-!
# Dense matrices

All entries row by row in one array, and whether the matrix refuses NaN and infinities.
-/

namespace PivotedLU

/-- A matrix in row-major order. -/
structure Dense (α : Type) where
  rows : Nat
  cols : Nat
  data : Array α
  strict : Bool
  deriving DecidableEq

namespace Dense

variable {α : Type}

def shape (d : Dense α) : Shape :=
  ⟨Int64.ofNat d.rows, Int64.ofNat d.cols⟩

instance : HasShape (Dense α) := ⟨shape⟩

/-- The matrix without rows, columns and entries, which refuses nothing. -/
def empty : Dense α :=
  ⟨0, 0, #[], false⟩

/-! ## Building -/

/-- A strict matrix of zeros. -/
@[specialize] def zeros [Zero α] (s : Shape) : Result (Dense α) :=
  if s.isValid then
    .ok ⟨s.rows.toNatClampNeg, s.cols.toNatClampNeg, Array.replicate s.size 0, true⟩
  else .fail .invalidDimensions

/-- A matrix of the given entries; a strict one names the first entry that is not finite. -/
@[specialize] def ofData [Scalar α] (s : Shape) (data : Array α) (strict : Bool) : Result (Dense α) :=
  if !s.isValid then .fail .invalidDimensions
  else if data.size ≠ s.size then
    Result.within (.cell .build s.rows.toInt s.cols.toInt) (.fail .badShape)
  else
    let cols := s.cols.toNatClampNeg
    match if strict then data.findIdx? (fun v => !Scalar.finite v) else none with
    | some k => Result.within (.cell .build (k / cols : Nat) (k % cols : Nat)) (.fail .notFinite)
    | none => .ok ⟨s.rows.toNatClampNeg, cols, data, strict⟩

/-- Joins rows of `cols` entries each, counted from `i` on; names the first row of another length. -/
def joinRows (cols : Nat) : Nat → List (Array α) → Array α → Result (Array α)
  | _, [], joined => .ok joined
  | i, row :: rows, joined =>
    if row.size ≠ cols then
      Result.within (.cell .build i row.size) (.fail .dimensionMismatch)
    else joinRows cols (i + 1) rows (joined ++ row)

/-- A matrix of the given rows, which must all be as long as the first one. -/
@[specialize] def ofRows [Scalar α] (rows : List (Array α)) (strict : Bool) : Result (Dense α) :=
  match rows with
  | [] => .fail .invalidDimensions
  | first :: _ =>
    let s : Shape := ⟨Int64.ofNat rows.length, Int64.ofNat first.size⟩
    if !s.isValid then .fail .invalidDimensions
    else do
      let data ← joinRows first.size 0 rows #[]
      ofData s data strict

/-! ## Entries -/

/-- The place of an entry in the row-major order. -/
def offset? (rows cols : Nat) (i j : Int64) : Option Nat :=
  if 0 ≤ i ∧ i.toInt < rows ∧ 0 ≤ j ∧ j.toInt < cols then
    some (i.toNatClampNeg * cols + j.toNatClampNeg)
  else none

/-- The place of an entry, or the error that names it. -/
def locate (access : Access) (rows cols : Nat) (i j : Int64) : Result Nat :=
  match offset? rows cols i j with
  | some k => .ok k
  | none => Result.within (.cell access i.toInt j.toInt) (.fail .outOfRange)

/-- The place where a value may be written: the entry exists and a strict matrix gets a finite
value. -/
def locateSet [Scalar α] (rows cols : Nat) (strict : Bool) (i j : Int64) (v : α) : Result Nat := do
  let k ← locate .set rows cols i j
  if strict && !Scalar.finite v then
    Result.within (.cell .set i.toInt j.toInt) (.fail .notFinite)
  else return k

/-- An entry. -/
def get (d : Dense α) (i j : Int64) : Result α := do
  let k ← locate .get d.rows d.cols i j
  Result.ofFaulty (Cells.array.read d.data k)

end Dense

end PivotedLU
