import PivotedLU.Matrix.Text

/-!
# Reports

What a command found out, as plain text, typeset, or as a document.
-/

namespace PivotedLU

/-- The result of a command on a matrix with `n` rows. -/
structure Report where
  command : String
  n : Int
  value : Option Float := none
  maxResidual : Option Float := none
  matrix : Option (Dense Float) := none
  vector : Option (Array Float) := none

/-- How a report is written. -/
inductive Output where
  | text
  | latex
  | yaml
  deriving DecidableEq, Repr

/-- The output with this name. -/
def Output.ofText? (s : String) : Option Output :=
  if s = "text" then some .text
  else if s = "latex" then some .latex
  else if s = "yaml" then some .yaml
  else none

/-- Numbers of a document: written as in results, but for what is not finite. -/
def Decimal.Layout.document : Decimal.Layout where
  positionalFrom := some (-4)
  positionalTo := some 5
  nan := ".nan"
  positiveInfinity := ".inf"
  negativeInfinity := "-.inf"

namespace Report

/-- The lines of the value and of the residual. -/
def numbers (r : Report) : String :=
  (r.value.elim "" fun x => Decimal.Layout.general.render x ++ "\n") ++
    (r.maxResidual.elim "" fun x => "max residual: " ++ Decimal.Layout.general.render x ++ "\n")

/-- Numbers, then the matrix row by row, then the vector. -/
def text (r : Report) : Result String := do
  let matrix ← match r.matrix with
    | some d => Result.ofFaulty d.text
    | none => .ok ""
  return r.numbers ++ matrix ++ r.vector.elim "" fun v => vectorText v ++ "\n"

/-- A typeset matrix on a line. -/
def latexLine (places : Int64) (d : Dense Float) : Result String := do
  let text ← PivotedLU.latex (some (.dense d)) places
  return text ++ "\n"

/-- Numbers, then the matrix, then the vector as a column. -/
def latex (places : Int64) (r : Report) : Result String := do
  let matrix ← match r.matrix with
    | some d => latexLine places d
    | none => .ok ""
  let vector ← match r.vector with
    | some v => do
      let column ← Dense.ofData ⟨Int64.ofNat v.size, 1⟩ v false
      latexLine places column
    | none => .ok ""
  return r.numbers ++ matrix ++ vector

/-- One row of a matrix as a list in a list. -/
def yamlRow : List String → String
  | [] => ""
  | x :: rest => "    - - " ++ x ++ "\n" ++ String.join (rest.map fun y => "      - " ++ y ++ "\n")

/-- The members that are there, one after the other. -/
def yaml (r : Report) : Result String := do
  let number := Decimal.Layout.document.render
  let matrix ← match r.matrix with
    | some d => do
      let rows ← Result.ofFaulty (entryTexts number d.rows d.cols d.data)
      pure ("matrix:\n" ++ String.join (rows.map yamlRow))
    | none => .ok ""
  return "command: " ++ r.command ++ "\n\"n\": " ++ Text.int r.n ++ "\n" ++
    (r.value.elim "" fun x => "value: " ++ number x ++ "\n") ++
    (r.maxResidual.elim "" fun x => "max_residual: " ++ number x ++ "\n") ++
    matrix ++
    r.vector.elim "" fun v =>
      "vector:\n" ++ String.join (v.toList.map fun x => "    - " ++ number x ++ "\n")

/-- The report as the given output. -/
def render (output : Output) (places : Int64) (r : Report) : Result String :=
  match output with
  | .text => r.text
  | .latex => r.latex places
  | .yaml => r.yaml

end Report

end PivotedLU
