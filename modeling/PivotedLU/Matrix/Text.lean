import PivotedLU.Decimal.Layout
import PivotedLU.Decimal.Places
import PivotedLU.Loop
import PivotedLU.Matrix.Check
import PivotedLU.Matrix.Operand
import PivotedLU.Text.Quoted

/-!
# Matrices as text

Plain rows in brackets, and a typeset matrix.
-/

namespace PivotedLU

/-- Row `i` of row-major entries, each written out. -/
def rowTexts (entry : Float → String) (cols : Nat) (data : Array Float) (i : Nat) :
    Except Fault (List String) := do
  let texts ← Loop.up 0 cols (fun j texts => do
    let v ← Cells.array.read data (i * cols + j)
    return entry v :: texts) []
  return texts.reverse

/-- All rows of row-major entries, each written out. -/
def entryTexts (entry : Float → String) (rows cols : Nat) (data : Array Float) :
    Except Fault (List (List String)) := do
  let texts ← Loop.up 0 rows (fun i texts => do
    let row ← rowTexts entry cols data i
    return row :: texts) []
  return texts.reverse

/-- The rows in brackets, one on a line. -/
def Dense.text (d : Dense Float) : Except Fault String := do
  let rows ← entryTexts Decimal.Layout.general.render d.rows d.cols d.data
  return String.join (rows.map fun row => "[" ++ String.intercalate ", " row ++ "]\n")

/-- A vector in brackets. -/
def vectorText (v : Array Float) : String :=
  "[" ++ String.intercalate " " (v.toList.map Decimal.Layout.general.render) ++ "]"

/-- An entry of a typeset matrix: rounded to the given places unless they are negative, without an
exponent, and with one kind of zero only. -/
def latexEntry (places : Int64) (v : Float) : String :=
  let v := if 0 ≤ places then Decimal.roundPlaces places.toNatClampNeg v else v
  Decimal.Layout.plain.render (if v == 0 then 0 else v)

/-- The matrix as a `pmatrix` environment. -/
def latex (m : Option (Operand Float)) (places : Int64) : Result String := Result.of .latex do
  let m ← Check.isPresent m
  let data ← m.flatten
  let rows ← Result.ofFaulty (entryTexts (latexEntry places) m.rowCount m.colCount data)
  return ("\\begin" ++ Text.braced "pmatrix") ++
    String.intercalate "\\\\" (rows.map (String.intercalate " & ")) ++
    ("\\end" ++ Text.braced "pmatrix")

end PivotedLU
