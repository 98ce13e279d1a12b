/-!
# Binary64 numbers

The exact value behind the bits of a number, and the number nearest to a quotient.
-/

namespace PivotedLU

/-- What the bits of a number mean; a finite one is `± mantissa · 2 ^ exponent`. -/
inductive Binary64 where
  | nan
  | infinite (negative : Bool)
  | finite (negative : Bool) (mantissa : Nat) (exponent : Int)
  deriving DecidableEq, Repr

namespace Binary64

/-- The weight of the sign bit. -/
def signWeight : Nat := 0x8000000000000000

/-- The weight of the lowest exponent bit, which is also the bit that a normal mantissa has and does
not store. -/
def leadingWeight : Nat := 0x10000000000000

/-- Reads sign, biased exponent and fraction. -/
def ofBits (bits : UInt64) : Binary64 :=
  let n := bits.toNat
  let negative := decide (signWeight ≤ n)
  let biased : Nat := n / leadingWeight % 2048
  let fraction : Nat := n % leadingWeight
  if biased = 2047 then
    if fraction = 0 then .infinite negative else .nan
  else if biased = 0 then .finite negative fraction (-1074)
  else .finite negative (fraction + leadingWeight) ((biased : Int) - 1075)

def ofFloat (x : Float) : Binary64 :=
  ofBits x.toBits

/-! ## Nearest numbers -/

/-- The natural number nearest to a quotient, a half going to the even neighbour. -/
def roundDiv (num den : Nat) : Nat :=
  let floor := num / den
  let twice := 2 * (num % den)
  if twice < den then floor
  else if den < twice then floor + 1
  else floor + floor % 2

/-- `n · base ^ e` as numerator and denominator. -/
def scale (n base : Nat) (e : Int) : Nat × Nat :=
  if 0 ≤ e then (n * Nat.pow base e.toNat, 1) else (n, Nat.pow base (-e).toNat)

/-- The exponent of the largest power of two that is at most a positive quotient. -/
def floorLog2 (num den : Nat) : Int :=
  let guess : Int := (num.log2 : Int) - (den.log2 : Int)
  let (a, b) := scale den 2 guess
  if num * b < a then guess - 1 else guess

/-- The bits, without sign, of the number nearest to a quotient, a half going to the even mantissa.
From `infinityBits` on the quotient is beyond the largest finite number. -/
def nearestBits (num den : Nat) : Nat :=
  if num = 0 then 0
  else
    let exponent := max (floorLog2 num den - 52) (-1074)
    let (a, b) := scale 1 2 exponent
    (exponent + 1074).toNat * leadingWeight + roundDiv (num * b) (den * a)

/-- The bits of positive infinity. -/
def infinityBits : Nat := 0x7ff0000000000000

/-- The bits of the sign. -/
def signBits (negative : Bool) : Nat :=
  if negative then signWeight else 0

/-- The number nearest to `± num / den`, or nothing when that is beyond the largest finite one. -/
def nearest? (negative : Bool) (num den : Nat) : Option Float :=
  let bits := nearestBits num den
  if bits < infinityBits then some (Float.ofBits (UInt64.ofNat (signBits negative + bits)))
  else none

/-- Positive or negative infinity. -/
def infinity (negative : Bool) : Float :=
  Float.ofBits (UInt64.ofNat (signBits negative + infinityBits))

/-- The number that is none. -/
def notANumber : Float :=
  Float.ofBits 0x7ff8000000000000

end Binary64

end PivotedLU
