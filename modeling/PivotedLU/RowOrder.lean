import PivotedLU.Fault
import PivotedLU.Scalar

/-!
# Row orders

The record of the row exchanges of a factorization: the entries `0, …, n - 1` give for each row of
the factors the row of the matrix it came from, and the last entry is `n` plus the number of
exchanges.
-/

namespace PivotedLU

/-- A record of row exchanges; any list of words has this form. -/
structure RowOrder where
  entries : Array Int64
  deriving DecidableEq, Repr

namespace RowOrder

/-- Every row at its own place, no exchange. -/
def reset (p : RowOrder) : RowOrder :=
  ⟨p.entries.mapIdx fun i _ => Int64.ofNat i⟩

/-- The order of `n` rows before the first exchange. -/
def identity (n : Nat) : RowOrder :=
  ⟨(Array.range (n + 1)).map Int64.ofNat⟩

/-- `identity` for a signed number of rows: `-1` gives the empty record, less is a fault. -/
def make (n : Int64) : Except Fault RowOrder :=
  let length := n + 1
  if length < 0 then .error .negativeLength
  else .ok (reset ⟨Array.replicate length.toNatClampNeg 0⟩)

/-- The number of rows; the empty record has `-1`. -/
def dimension (p : RowOrder) : Int64 :=
  Int64.ofNat p.entries.size - 1

/-- Entry `i` of the record. -/
@[inline] def entry (p : RowOrder) (i : Nat) : Except Fault Int64 :=
  if h : i < p.entries.size then .ok p.entries[i] else .error .outOfBounds

/-- The number of exchanges. -/
def swaps (p : RowOrder) : Except Fault Int64 :=
  match p.entries.back? with
  | some last => .ok (last - p.dimension)
  | none => .error .outOfBounds

/-- The sign of the permutation: one for an even number of exchanges, else minus one. -/
def sign {α : Type} [Scalar α] (p : RowOrder) : Except Fault α := do
  let k ← p.swaps
  return if k % 2 = 0 then 1 else -1

/-- The rows without the exchange count. -/
def rows (p : RowOrder) : Except Fault (Array Int64) :=
  if p.entries.isEmpty then .error .negativeLength else .ok p.entries.pop

/-- Exchanges two rows. -/
def exchange (p : RowOrder) (i j : Nat) : Except Fault RowOrder := do
  let x ← p.entry i
  let y ← p.entry j
  return ⟨(p.entries.setIfInBounds i y).setIfInBounds j x⟩

/-- Counts one exchange in entry `n`. -/
def count (p : RowOrder) (n : Nat) : Except Fault RowOrder := do
  let k ← p.entry n
  return ⟨p.entries.setIfInBounds n (k + 1)⟩

/-- Looks whether the remaining rows are in range, new, and different from each other. -/
def distinct (n : Int64) : List Int64 → Array Bool → Except Fault Bool
  | [], _ => .ok true
  | v :: vs, seen =>
    if v < 0 ∨ n ≤ v then .ok false
    else
      match seen[v.toNatClampNeg]? with
      | none => .error .outOfBounds
      | some true => .ok false
      | some false => distinct n vs (seen.setIfInBounds v.toNatClampNeg true)

/-- Whether the record has at least one row, is a permutation of its rows and counts no negative
number of exchanges. -/
def isValid (p : RowOrder) : Except Fault Bool :=
  if p.entries.size < 2 then .ok false
  else
    match p.entries.back? with
    | none => .error .outOfBounds
    | some last =>
      if last < p.dimension then .ok false
      else distinct p.dimension p.entries.pop.toList
        (Array.replicate p.dimension.toNatClampNeg false)

end RowOrder

end PivotedLU
