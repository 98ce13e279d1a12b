import PivotedLU.Matrix.Dense
import PivotedLU.Numeral
import PivotedLU.Text.Blank
import PivotedLU.Text.Fields

/-!
# Row literals

Matrices written row by row, such as `[4 3; 6, 3]`: rows end at a semicolon, entries at commas,
blanks and line ends, and one pair of brackets may stand around all.
-/

namespace PivotedLU.Literal

/-- What separates the entries of a row. -/
def isSeparator (c : Char) : Bool :=
  c == ',' || c == ' ' || c == '\t' || c == '\n' || c == '\r'

/-- Without one opening bracket at the start and one closing bracket at the end. -/
def unbracket (s : List Char) : List Char :=
  let s := match s with
    | '[' :: rest => rest
    | s => s
  if s.getLast? = some ']' then s.dropLast else s

/-- The literal without the blanks around it and its brackets. -/
def body (text : String) : List Char :=
  unbracket (Text.trim text.toList)

/-- The tokens of every row. -/
def tokens (text : String) : List (List (List Char)) :=
  (Text.splitAt ';' (body text)).map (Text.fields isSeparator)

variable {α : Type} (number : List Char → Option α)

/-- The entries of row `i`, from entry `j` on; names the first token that is no number. -/
def readTokens (i : Nat) : Nat → List (List Char) → Result (List α)
  | _, [] => .ok []
  | j, token :: rest =>
    match number token with
    | none => Result.within (.token i j (String.ofList token)) (.fail .malformed)
    | some v => do
      let vs ← readTokens i (j + 1) rest
      return v :: vs

/-- The rows from row `i` on; names the first one without entries. -/
def readRows (i : Nat) : List (List (List Char)) → Result (List (Array α))
  | [] => .ok []
  | [] :: _ => Result.within (.row i) (.fail .malformed)
  | row :: rows => do
    let vs ← readTokens number i 0 row
    let rest ← readRows (i + 1) rows
    return vs.toArray :: rest

/-- Reads a matrix, given how to read a number. -/
def readWith [Scalar α] (text : String) (strict : Bool) : Result (Dense α) := Result.of .parse do
  if Text.trim (body text) = [] then .fail .malformed
  else do
    let rows ← readRows number 0 (tokens text)
    Dense.ofRows rows strict

end PivotedLU.Literal

namespace PivotedLU

/-- Reads a matrix of binary64 numbers. -/
def parseRows (text : String) (strict : Bool) : Result (Dense Float) :=
  Literal.readWith (fun token => (Numeral.float token).toOption) text strict

end PivotedLU
