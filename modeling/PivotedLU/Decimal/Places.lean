import PivotedLU.Decimal.Basic

/-!
# Rounding to decimal places
-/

namespace PivotedLU.Decimal

/-- The decimal with the given number of places nearest to `m · 2 ^ q`, a half going to the even
digit. -/
def toPlaces (m : Nat) (q : Int) (places : Nat) : Decimal :=
  let (num, den) := Binary64.scale m 2 q
  ⟨Binary64.roundDiv (num * Nat.pow 10 places) den, -places⟩

/-- A number rounded to decimal places and read back. No number has more than 1074 places, so from
there on nothing changes. -/
def roundPlaces (places : Nat) (x : Float) : Float :=
  if 1074 ≤ places then x
  else
    match Binary64.ofFloat x with
    | .finite negative m q => ((toPlaces m q places).toFloat? negative).getD x
    | _ => x

end PivotedLU.Decimal
