import PivotedLU.Fault
import PivotedLU.Text.Integer
import PivotedLU.Text.Quoted

/-!
# Errors

An error is a cause and the places it passed through on its way to the caller, outermost first.
-/

namespace PivotedLU

/-- What can be wrong with the arguments of an operation. -/
inductive Cause where
  | invalidDimensions
  | badShape
  | outOfRange
  | dimensionMismatch
  | absent
  | notFinite
  | singular
  | aliasedOutput
  | malformed
  | foreign (text : String)
  deriving DecidableEq, Repr

/-- The operations that put their name before an error. -/
inductive Routine where
  | factorize
  | solve
  | inverse
  | determinant
  | trace
  | transpose
  | multiply
  | identity
  | latex
  | parse
  | flatDecompose
  | flatSolve
  | flatInverse
  | flatDeterminant
  | flatTrace
  | flatTranspose
  | flatMultiply
  deriving DecidableEq, Repr

/-- The checks that put their name before an error. -/
inductive Check where
  | present
  | sameShape
  | sameRows
  | sameColumns
  | square
  | vectorLength
  | multipliable
  | flatSquare
  | noAlias
  deriving DecidableEq, Repr

/-- The ways to touch a single cell of a dense matrix. -/
inductive Access where
  | get
  | set
  | build
  deriving DecidableEq, Repr

/-- One place an error passed through. -/
inductive Frame where
  | routine (name : Routine)
  | check (name : Check)
  | cell (access : Access) (row col : Int)
  | entry (row col : Int)
  | column (index : Int)
  | row (index : Nat)
  | token (row index : Nat) (text : String)
  | literal (text : String)
  | sample (size : Int)
  deriving DecidableEq, Repr

/-- An error with its path. -/
structure Error where
  path : List Frame
  cause : Cause
  deriving DecidableEq, Repr

/-- The settings that refuse a value. -/
inductive Refusal where
  | pivotTolerance
  | epsilon
  deriving DecidableEq, Repr

/-- How an operation can fail to give a value: an error of the domain, a refused setting, or a
fault. -/
inductive Failure where
  | error (e : Error)
  | refused (r : Refusal)
  | fault (f : Fault)
  deriving DecidableEq, Repr

/-- A value and the error that it stands beside, if there is one. -/
structure Handed (α : Type) where
  value : α
  error : Option Error
  deriving DecidableEq, Repr

/-! ## Wording -/

def Cause.message : Cause → String
  | .invalidDimensions => "matrix: dimensions must be > 0"
  | .badShape => "matrix: invalid shape"
  | .outOfRange => "matrix: index out of range"
  | .dimensionMismatch => "matrix: dimension mismatch"
  | .absent => "matrix: nil receiver"
  | .notFinite => "matrix: NaN or Inf encountered"
  | .singular => "matrix: singular matrix"
  | .aliasedOutput => "matrix: output aliases input"
  | .malformed => "matrix: malformed matrix literal"
  | .foreign text => text

def Routine.message : Routine → String
  | .factorize => "LU"
  | .solve => "Solve"
  | .inverse => "Inverse"
  | .determinant => "Determinant"
  | .trace => "Trace"
  | .transpose => "Transpose"
  | .multiply => "Mul"
  | .identity => "Identity"
  | .latex => "FormatLaTeX"
  | .parse => "ParseRows"
  | .flatDecompose => "ops.Decompose"
  | .flatSolve => "ops.Solve"
  | .flatInverse => "ops.Inverse"
  | .flatDeterminant => "ops.Determinant"
  | .flatTrace => "ops.Trace"
  | .flatTranspose => "ops.Transpose"
  | .flatMultiply => "ops.Multiply"

def Check.message : Check → String
  | .present => "ValidateNotNil"
  | .sameShape => "ValidateSameShape"
  | .sameRows => "ValidateSameShape: Rows"
  | .sameColumns => "ValidateSameShape: Columns"
  | .square => "ValidateSquare"
  | .vectorLength => "ValidateVecLen"
  | .multipliable => "ValidateMulCompatible"
  | .flatSquare => "ValidateFlatSquare"
  | .noAlias => "ValidateNoAlias"

def Access.message : Access → String
  | .get => "Dense.At"
  | .set => "Dense.Set"
  | .build => "Dense.From"

/-- A position in parentheses. -/
def positionText (row col : Int) : String :=
  "(" ++ Text.int row ++ "," ++ Text.int col ++ ")"

def Frame.message : Frame → String
  | .routine name => name.message
  | .check name => name.message
  | .cell access r c => access.message ++ positionText r c
  | .entry r c => "At" ++ positionText r c
  | .column index => "column " ++ Text.int index
  | .row index => "row " ++ Text.nat index
  | .token r index text =>
    "row " ++ Text.nat r ++ ", entry " ++ Text.nat index ++ " " ++ Text.quoted text
  | .literal text => "parse matrix " ++ Text.quoted text
  | .sample size => "selfcheck matrix of size " ++ Text.int size

/-- The path and the cause, separated by colons. -/
def Error.message (e : Error) : String :=
  e.path.foldr (fun frame rest => frame.message ++ ": " ++ rest) e.cause.message

def Refusal.message : Refusal → String
  | .pivotTolerance => "matrix: WithPivotTolerance: tol must be finite, non-negative"
  | .epsilon => "matrix: WithEpsilon: eps must be finite, non-negative"

/-! ## Building errors -/

/-- The result of an operation. -/
abbrev Result (α : Type) := Except Failure α

namespace Failure

/-- The same failure seen from one place further out. -/
def within (frame : Frame) : Failure → Failure
  | .error e => .error { e with path := frame :: e.path }
  | .refused r => .refused r
  | .fault f => .fault f

end Failure

namespace Result

variable {α : Type}

/-- Fails with a cause. -/
def fail (cause : Cause) : Result α :=
  .error (.error ⟨[], cause⟩)

/-- Puts a frame before the errors of a result. -/
def within (frame : Frame) : Result α → Result α
  | .ok a => .ok a
  | .error f => .error (f.within frame)

/-- Puts the name of a routine before the errors of a result. -/
def of (name : Routine) (r : Result α) : Result α :=
  within (.routine name) r

/-- A computation that can only fault. -/
def ofFaulty : Except Fault α → Result α
  | .ok a => .ok a
  | .error f => .error (.fault f)

/-- What a caller is handed who gets a value in any case: beside an error it is `blank`. A fault hands
over nothing. -/
def handed (blank : α) : Result α → Result (Handed α)
  | .ok a => .ok ⟨a, none⟩
  | .error (.error e) => .ok ⟨blank, some e⟩
  | .error f => .error f

end Result

end PivotedLU
