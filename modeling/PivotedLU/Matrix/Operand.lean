import PivotedLU.Loop
import PivotedLU.Matrix.Dense

/-!
# Operands

What an operation takes for a matrix: a dense one, or one known only by its shape and its entries.
-/

namespace PivotedLU

variable {α : Type}

/-- A matrix known by the shape it reports and by what it answers for an entry. -/
structure Foreign (α : Type) where
  shape : Shape
  entry : Int64 → Int64 → Except Error α

/-- A matrix given to an operation. -/
inductive Operand (α : Type) where
  | dense (d : Dense α)
  | foreign (f : Foreign α)

namespace Foreign

/-- The matrix of a table of entries, which may be shorter than the shape says. At one position it
may answer a text of its own. -/
def ofTable (shape : Shape) (data : Array α) (refusal : Option (Int64 × Int64 × String)) :
    Foreign α where
  shape
  entry i j :=
    match refusal.filter fun (r, c, _) => r == i && c == j with
    | some (_, _, text) => .error ⟨[], .foreign text⟩
    | none =>
      let k := i * shape.cols + j
      match if k < 0 then none else data[k.toNatClampNeg]? with
      | some v => .ok v
      | none => .error ⟨[], .outOfRange⟩

/-- An entry asked for by an operation; an error names the position. -/
def ask (f : Foreign α) (i j : Nat) : Result α :=
  match f.entry (Int64.ofNat i) (Int64.ofNat j) with
  | .ok v => .ok v
  | .error e => Result.within (.entry i j) (.error (.error e))

/-- All entries row by row. -/
def flatten (f : Foreign α) : Result (Array α) :=
  if f.shape.isValid then
    Loop.up 0 f.shape.rows.toNatClampNeg (fun i out =>
      Loop.up 0 f.shape.cols.toNatClampNeg (fun j out => do
        let v ← f.ask i j
        return out.push v) out) #[]
  else .fail .invalidDimensions

end Foreign

namespace Operand

def shape : Operand α → Shape
  | .dense d => d.shape
  | .foreign f => f.shape

instance : HasShape (Operand α) := ⟨shape⟩

/-- The number of rows to loop over. -/
def rowCount : Operand α → Nat
  | .dense d => d.rows
  | .foreign f => f.shape.rows.toNatClampNeg

/-- The number of columns to loop over. -/
def colCount : Operand α → Nat
  | .dense d => d.cols
  | .foreign f => f.shape.cols.toNatClampNeg

/-- An entry as the matrix itself answers. -/
def get (i j : Int64) : Operand α → Result α
  | .dense d => d.get i j
  | .foreign f =>
    match f.entry i j with
    | .ok v => .ok v
    | .error e => .error (.error e)

/-- All entries row by row. -/
def flatten : Operand α → Result (Array α)
  | .dense d => .ok d.data
  | .foreign f => f.flatten

end Operand

end PivotedLU
