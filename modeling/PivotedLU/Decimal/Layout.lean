import PivotedLU.Decimal.Shortest
import PivotedLU.Text.Integer

/-!
# Layout of numbers

How the shortest decimal of a number is written out.
-/

namespace PivotedLU.Decimal

/-- All digits in place, with a point if there are fractional ones. -/
def positional (d : Decimal) : List Char :=
  let digits := Nat.toDigits 10 d.coefficient
  if 0 ≤ d.exponent then digits ++ List.replicate d.exponent.toNat '0'
  else
    let places := (-d.exponent).toNat
    let whole := digits.length - places
    if places < digits.length then digits.take whole ++ '.' :: digits.drop whole
    else '0' :: '.' :: (List.replicate (places - digits.length) '0' ++ digits)

/-- The exponent of the first digit. -/
def leading (d : Decimal) : Int :=
  d.exponent + ((Nat.toDigits 10 d.coefficient).length : Int) - 1

/-- At least two digits. -/
def twoDigits (n : Nat) : List Char :=
  if n < 10 then '0' :: Nat.toDigits 10 n else Nat.toDigits 10 n

/-- One digit before the point, and a signed exponent of at least two digits. -/
def scientific (d : Decimal) : List Char :=
  let exponent := d.leading
  let mantissa :=
    match Nat.toDigits 10 d.coefficient with
    | [] => []
    | [digit] => [digit]
    | digit :: rest => digit :: '.' :: rest
  mantissa ++ 'e' :: (if exponent < 0 then '-' else '+') :: twoDigits exponent.natAbs

/-- The choices of one kind of output: between which exponents of the first digit a number is
written positionally, and the texts of what is not finite. -/
structure Layout where
  positionalFrom : Option Int
  positionalTo : Option Int
  nan : String
  positiveInfinity : String
  negativeInfinity : String

namespace Layout

/-- Whether a first digit at this exponent is written positionally. -/
def isPositional (l : Layout) (exponent : Int) : Bool :=
  (l.positionalFrom.all fun low => decide (low ≤ exponent)) &&
    (l.positionalTo.all fun high => decide (exponent ≤ high))

/-- The text of a number; a zero keeps its sign. -/
def render (l : Layout) (x : Float) : String :=
  match Binary64.ofFloat x with
  | .nan => l.nan
  | .infinite negative => if negative then l.negativeInfinity else l.positiveInfinity
  | .finite negative m q =>
    let d := shortest m q
    let digits := if l.isPositional d.leading then d.positional else d.scientific
    String.ofList (if negative then '-' :: digits else digits)

/-- Results and messages: a number is written positionally if its first digit stands between the
fourth place after the point and the sixth before it. -/
def general : Layout where
  positionalFrom := some (-4)
  positionalTo := some 5
  nan := "NaN"
  positiveInfinity := "+Inf"
  negativeInfinity := "-Inf"

/-- Typeset matrices: never an exponent. -/
def plain : Layout where
  positionalFrom := none
  positionalTo := none
  nan := "NaN"
  positiveInfinity := "+Inf"
  negativeInfinity := "-Inf"

end Layout

end PivotedLU.Decimal
