/-!
# Edit distance
-/

namespace PivotedLU.Text

variable {α : Type} [DecidableEq α]

/-- The distances of a text that ends in `c` to the beginnings of `t`, given the distance at the
left and those of the text without `c`. -/
def distanceRow (c : α) : (left : Nat) → (t : List α) → List Nat → List Nat
  | left, d :: t, diagonal :: above :: rest =>
    let here := if c = d then diagonal else min diagonal (min above left) + 1
    here :: distanceRow c here t (above :: rest)
  | _, _, _ => []

/-- The distances to all beginnings of `t` after one more character. -/
def distanceStep (t : List α) (row : List Nat) (c : α) : List Nat :=
  match row with
  | [] => []
  | first :: _ => (first + 1) :: distanceRow c (first + 1) t row

/-- The least number of insertions, deletions and replacements that turn one list into the other. -/
def distance (s t : List α) : Nat :=
  (s.foldl (distanceStep t) (List.range (t.length + 1))).getLastD 0

end PivotedLU.Text
