/-!
# Scalars

The operations on matrix entries that the kernels use, and nothing else of the entries.
-/

namespace PivotedLU

/-- Arithmetic, magnitude, the two comparisons of the kernels and the test behind the NaN/Inf policy. -/
class Scalar (α : Type) extends Zero α, One α, Add α, Sub α, Neg α, Mul α, Div α where
  magnitude : α → α
  less : α → α → Bool
  atMost : α → α → Bool
  finite : α → Bool

/-- Binary64 with its rounded arithmetic; a comparison with a NaN is false. -/
@[inline] instance : Scalar Float where
  zero := 0
  one := 1
  magnitude := Float.abs
  less x y := x < y
  atMost x y := x ≤ y
  finite := Float.isFinite

end PivotedLU
