import PivotedLU.Command.Flag

/-!
# Descriptions

The texts that describe the program, its commands and its flags. There is one page for the whole
program: the pages of single commands and the columns of a page are not modelled, so that of a run
that ends with a description only `Outcome.needsHelp` is known.
-/

namespace PivotedLU

namespace Command

/-- A command with the words it takes. -/
def synopsis (c : Command) : String :=
  match c with
  | .selfcheck => c.name
  | .evaluate _ => c.name ++ " MATRIX"
  | .solve => c.name ++ " MATRIX RHS"

def summary : Command → String
  | .selfcheck => "Invert a random matrix and verify A·A⁻¹ ≈ I."
  | .evaluate .determinant => "Print the determinant of a square matrix."
  | .evaluate .inverse => "Print the inverse of a square matrix."
  | .evaluate .trace => "Print the trace of a square matrix."
  | .evaluate .transpose => "Print the transpose of a matrix."
  | .solve => "Solve MATRIX·x = RHS for x."

/-- What the program is for. -/
def purpose : String :=
  "lupcheck runs the lupkit kernels on matrices given as row literals\n" ++
    "(\"4 3; 6 3\") or on a random self-check matrix, and reports the results as\n" ++
    "plain text, LaTeX or YAML.\n"

end Command

def Flag.usage : Flag → String
  | .logLevel => "Log level: debug, info, warn or error"
  | .logFormat => "Log encoding: console, json or logfmt"
  | .output => "Result format: text, latex or yaml"
  | .precision => "Decimal places kept by the latex output (-1 for full precision)"
  | .pivotTolerance => "Pivot magnitude at or below which a column counts as singular"
  | .size => "Matrix dimension"
  | .seed => "Random seed"
  | .maxResidual => "Largest tolerated |A·A⁻¹ - I| entry"
  | .display => "Include A·A⁻¹ in the output (n <= 100)"
  | .help => "help for lupcheck"

namespace Command

/-- The page, with every command and every flag. -/
def page : String :=
  let commands := all.map fun c => "  " ++ c.synopsis ++ "  " ++ c.summary ++ "\n"
  let flags := Flag.all.map fun f => "  " ++ f.label ++ "  " ++ f.usage ++ "\n"
  purpose ++ "\nCommands:\n" ++ String.join commands ++ "\nFlags:\n" ++ String.join flags

end Command

end PivotedLU
