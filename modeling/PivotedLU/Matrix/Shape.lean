/-!
# Shapes

Row and column counts are signed 64-bit words, as callers give them.
-/

namespace PivotedLU

/-- The row and column counts that a matrix reports. -/
structure Shape where
  rows : Int64
  cols : Int64
  deriving DecidableEq, Repr

namespace Shape

/-- Both counts are positive and their product is a signed 64-bit number. -/
def isValid (s : Shape) : Bool :=
  decide (0 < s.rows) && decide (0 < s.cols) && decide (s.rows ≤ Int64.maxValue / s.cols)

/-- The number of cells. -/
def size (s : Shape) : Nat :=
  (s.rows * s.cols).toNatClampNeg

end Shape

/-- Things with a shape. -/
class HasShape (μ : Type) where
  shape : μ → Shape

end PivotedLU
