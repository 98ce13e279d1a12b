import PivotedLU.Command.Configuration
import PivotedLU.Literal
import PivotedLU.Matrix.Arithmetic
import PivotedLU.Matrix.Residual
import PivotedLU.Random.Source
import PivotedLU.Stored.Matrix

/-!
# Executing commands
-/

namespace PivotedLU.Command

/-- What a command leaves behind. -/
structure Transcript where
  entries : List Log.Entry := []
  output : String := ""

/-- A computation that logs, prints and can fail. -/
abbrev Execution := ExceptT CommandError (StateM Transcript)

/-- The value of a result, or its failure. -/
def demand {β : Type} : Result β → Execution β
  | .ok b => return b
  | .error f => throw (.failure f)

/-- Logs a message of a command. -/
def note (command : Command) (level : Log.Level) (message : String)
    (fields : List (String × Log.Value)) : Execution Unit :=
  modify fun t =>
    { t with entries := t.entries ++ [⟨level, message, ("command", .text command.name) :: fields⟩] }

/-- Prints a report. -/
def emit (config : Configuration) (r : Report) : Execution Unit := do
  let text ← demand (r.render config.output config.precision)
  modify fun t => { t with output := t.output ++ text }

/-- Reads a matrix literal. -/
def readLiteral (command : Command) (literal : String) : Execution (Dense Float) := do
  let d ← demand (Result.within (.literal literal) (parseRows literal true))
  note command .debug "parsed matrix" [("rows", .integer d.rows), ("cols", .integer d.cols)]
  return d

/-! ## Evaluations -/

/-- The determinant of a matrix that nobody needs afterwards, factored in its own cells. -/
def consumeDeterminant (tol : Float) (d : Dense Float) : Result Float :=
  let (m, store) := Store.empty.keep d
  (StoredMatrix.determinantInPlace tol (some m) store).1

/-- What an evaluation says about a matrix. -/
def report (tol : Float) (e : Evaluation) (d : Dense Float) : Result Report :=
  let blank : Report := { command := (Command.evaluate e).name, n := d.rows }
  match e with
  | .determinant => do
    let x ← consumeDeterminant tol d
    return { blank with value := some x }
  | .inverse => do
    let inverse ← PivotedLU.inverse tol (some (.dense d))
    return { blank with matrix := some inverse }
  | .trace => do
    let x ← PivotedLU.trace (some (.dense d))
    return { blank with value := some x }
  | .transpose => do
    let transposed ← PivotedLU.transpose (some (.dense d))
    return { blank with matrix := some transposed }

/-- Evaluates one literal. -/
def executeEvaluation (config : Configuration) (e : Evaluation) (literal : String) :
    Execution Unit := do
  let command := Command.evaluate e
  let d ← readLiteral command literal
  match report config.pivotTolerance e d with
  | .error f =>
    note command .warn "evaluation failed" [("error", .text f.message)]
    throw (.failure f)
  | .ok r =>
    note command .info "evaluated" [("n", .integer d.rows), ("elapsed", .elapsed)]
    emit config r

/-! ## Systems of equations -/

/-- Solves a system given by two literals. -/
def executeSolve (config : Configuration) (left right : String) : Execution Unit := do
  let d ← readLiteral .solve left
  let rhs ← readLiteral .solve right
  if rhs.rows ≠ 1 ∧ rhs.cols ≠ 1 then throw (.rightHandSide rhs.shape)
  let f ← demand (factorize config.pivotTolerance (some (.dense d)))
  let x ← demand (f.solve (some rhs.data))
  let swaps ← demand (Result.ofFaulty f.order.swaps)
  note .solve .info "solved" [("n", .integer f.n), ("swaps", .integer swaps.toInt)]
  emit config { command := Command.solve.name, n := f.n, vector := some x }

/-! ## Self-check -/

/-- The largest product that a self-check shows. -/
def displayLimit : Int64 := 100

/-- The random matrix of a self-check. -/
def sample (n seed : Int64) : Result (Dense Float) := do
  let d : Dense Float ← Result.within (.sample n.toInt) (Dense.zeros ⟨n, n⟩)
  return { d with data := Random.entries d.data.size (Random.Source.ofSeed seed) #[] }

/-- Inverts a random matrix and measures how far the product of both is from the identity. -/
def executeSelfcheck (config : Configuration) : Execution Unit := do
  let n := config.size
  let tol := config.pivotTolerance
  if n ≤ 0 then throw (.size n.toInt)
  let a ← demand (sample n config.seed)
  note .selfcheck .debug "generated matrix"
    [("n", .integer n.toInt), ("seed", .integer config.seed.toInt)]
  let inverse ← demand (PivotedLU.inverse tol (some (.dense a)))
  let product ← demand (multiply (some (.dense a)) (some (.dense inverse)))
  let det ← demand (determinant tol (some (.dense product)))
  let residual ← demand (identityResidual (some (.dense product)))
  let row := residual.offset / n.toNatClampNeg
  let col := residual.offset % n.toNatClampNeg
  note .selfcheck .info "selfcheck finished"
    [("n", .integer n.toInt), ("seed", .integer config.seed.toInt), ("det", .float det),
      ("maxResidual", .float residual.worst), ("pivotTol", .float tol), ("row", .integer row),
      ("col", .integer col), ("elapsed", .elapsed)]
  emit config {
    command := Command.selfcheck.name
    n := n.toInt
    value := some det
    maxResidual := some residual.worst
    matrix := if config.display ∧ n ≤ displayLimit then some product else none }
  if ¬ (residual.worst ≤ config.maxResidual) then
    note .selfcheck .warn "residual above threshold"
      [("maxResidual", .float residual.worst), ("limit", .float config.maxResidual)]
    throw (.residual residual.worst row col config.maxResidual)

/-! ## Invocations -/

/-- A command with its words. -/
inductive Invocation where
  | selfcheck
  | evaluate (e : Evaluation) (literal : String)
  | solve (left right : String)
  deriving DecidableEq, Repr

/-- Gives a command its words, of which there must be the right number. -/
def Invocation.make : Command → List String → Except UsageError Invocation
  | .selfcheck, [] => .ok .selfcheck
  | .selfcheck, word :: _ => .error (.unexpectedWord .selfcheck word)
  | .evaluate e, [literal] => .ok (.evaluate e literal)
  | .evaluate _, words => .error (.wordCount 1 words.length)
  | .solve, [left, right] => .ok (.solve left right)
  | .solve, words => .error (.wordCount 2 words.length)

def Invocation.execute (config : Configuration) : Invocation → Execution Unit
  | .selfcheck => executeSelfcheck config
  | .evaluate e literal => executeEvaluation config e literal
  | .solve left right => executeSolve config left right

end PivotedLU.Command
