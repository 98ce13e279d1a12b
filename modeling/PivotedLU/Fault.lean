/-!
# Faults

What stops a computation that trusts its arguments.
-/

namespace PivotedLU

/-- A broken promise of the caller: an index outside a buffer, a missing value, a negative length, a
zero to divide by. -/
inductive Fault where
  | outOfBounds
  | missing
  | negativeLength
  | zeroDivisor
  deriving DecidableEq, Repr

end PivotedLU
