/-!
# Integers in decimal
-/

namespace PivotedLU.Text

/-- The decimal digits of a natural number. -/
def nat (n : Nat) : String :=
  String.ofList (Nat.toDigits 10 n)

/-- An integer with a minus sign if it is negative. -/
def int (i : Int) : String :=
  if i < 0 then "-" ++ nat i.natAbs else nat i.natAbs

end PivotedLU.Text
