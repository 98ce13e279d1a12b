import PivotedLU.Binary64

/-!
# Decimals

A decimal is `coefficient · 10 ^ exponent`.
-/

namespace PivotedLU

structure Decimal where
  coefficient : Nat
  exponent : Int
  deriving DecidableEq, Repr

namespace Decimal

/-- The binary64 number nearest to `± d`, if it is finite. -/
def toFloat? (negative : Bool) (d : Decimal) : Option Float :=
  let (num, den) := Binary64.scale d.coefficient 10 d.exponent
  Binary64.nearest? negative num den

/-- The same decimal without zeros at the end of the coefficient. -/
def strip (coefficient : Nat) (exponent : Int) : Decimal :=
  if h : coefficient ≠ 0 ∧ coefficient % 10 = 0 then strip (coefficient / 10) (exponent + 1)
  else ⟨coefficient, exponent⟩
  termination_by coefficient
  decreasing_by omega

end Decimal

end PivotedLU
