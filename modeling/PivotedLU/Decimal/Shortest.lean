import PivotedLU.Decimal.Basic

/-!
# Shortest decimals

The fewest digits that read back as the same binary64 number, and of those the nearest to it.
-/

namespace PivotedLU.Decimal

/-- Compares `c · 10 ^ p` with `b · 2 ^ e` exactly. -/
def compareBinary (c : Nat) (p : Int) (b : Nat) (e : Int) : Ordering :=
  let (c₁, c₂) := Binary64.scale c 10 p
  let (b₁, b₂) := Binary64.scale b 2 e
  compare (c₁ * b₂) (b₁ * c₂)

/-- Whether `c · 10 ^ p` lies between the midpoints around `m · 2 ^ q`; a midpoint itself rounds to
an even `m`. Below a power of two the gap is half as wide. -/
def roundsTo (m : Nat) (q : Int) (c : Nat) (p : Int) : Bool :=
  let low := if m = Binary64.leadingWeight ∧ q ≠ -1074 then 4 * m - 1 else 4 * m - 2
  let high := 4 * m + 2
  let even := m % 2 == 0
  (match compareBinary c p low (q - 2) with
    | .lt => false
    | .eq => even
    | .gt => true) &&
  (match compareBinary c p high (q - 2) with
    | .lt => true
    | .eq => even
    | .gt => false)

/-- `m · 2 ^ q` in units of `10 ^ p`, as numerator and denominator. -/
def units (m : Nat) (q p : Int) : Nat × Nat :=
  let (a, b) := Binary64.scale m 2 q
  let (c, d) := Binary64.scale 1 10 p
  (a * d, b * c)

/-- A multiple of `10 ^ p` that reads back as `m · 2 ^ q`: one of the two neighbours, the nearer
one if both do, and the even one if they are equally near. -/
def candidate (m : Nat) (q p : Int) : Option Nat :=
  let (num, den) := units m q p
  let floor := num / den
  match roundsTo m q floor p, roundsTo m q (floor + 1) p with
  | true, true => some (Binary64.roundDiv num den)
  | true, false => some floor
  | false, true => some (floor + 1)
  | false, false => none

/-- The exponent of the largest power of ten that is at most `m · 2 ^ q`. -/
def floorLog10 (m : Nat) (q : Int) : Int :=
  let guess := (((m.log2 : Int) + q) * 30103).fdiv 100000
  if compareBinary 1 (guess + 1) m q != .gt then guess + 1
  else if compareBinary 1 guess m q == .gt then guess - 1
  else guess

/-- Tries finer and finer grids; the last one is fine enough for every number. -/
def search (m : Nat) (q : Int) : Nat → Int → Decimal
  | 0, p =>
    let (num, den) := units m q p
    ⟨Binary64.roundDiv num den, p⟩
  | finer + 1, p =>
    match candidate m q p with
    | some c => ⟨c, p⟩
    | none => search m q finer (p - 1)

/-- The shortest decimal of `m · 2 ^ q`; seventeen digits always suffice. -/
def shortest (m : Nat) (q : Int) : Decimal :=
  if m = 0 then ⟨0, 0⟩
  else
    let d := search m q 16 (floorLog10 m q)
    strip d.coefficient d.exponent

end PivotedLU.Decimal
