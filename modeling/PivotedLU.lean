import PivotedLU.Binary64
import PivotedLU.Cells
import PivotedLU.Command.Arguments
import PivotedLU.Command.Basic
import PivotedLU.Command.Configuration
import PivotedLU.Command.Error
import PivotedLU.Command.Execution
import PivotedLU.Command.Flag
import PivotedLU.Command.Help
import PivotedLU.Command.Run
import PivotedLU.Decimal.Basic
import PivotedLU.Decimal.Layout
import PivotedLU.Decimal.Places
import PivotedLU.Decimal.Shortest
import PivotedLU.Error
import PivotedLU.Factors
import PivotedLU.Fault
import PivotedLU.Flat
import PivotedLU.Kernel.Diagonal
import PivotedLU.Kernel.Elimination
import PivotedLU.Kernel.Product
import PivotedLU.Kernel.Substitution
import PivotedLU.Kernel.Transposition
import PivotedLU.Literal
import PivotedLU.Log.Encoding
import PivotedLU.Log.Entry
import PivotedLU.Loop
import PivotedLU.Main
import PivotedLU.Matrix.Arithmetic
import PivotedLU.Matrix.Check
import PivotedLU.Matrix.Dense
import PivotedLU.Matrix.Operand
import PivotedLU.Matrix.Residual
import PivotedLU.Matrix.Shape
import PivotedLU.Matrix.Text
import PivotedLU.Numeral
import PivotedLU.Proofs.Accumulation
import PivotedLU.Proofs.Arithmetic
import PivotedLU.Proofs.Bits
import PivotedLU.Proofs.Bounds
import PivotedLU.Proofs.Calls
import PivotedLU.Proofs.Cells
import PivotedLU.Proofs.Command.Arguments
import PivotedLU.Proofs.Command.Environment
import PivotedLU.Proofs.Command.Execution
import PivotedLU.Proofs.Command.Questions
import PivotedLU.Proofs.Decimal.Nearest
import PivotedLU.Proofs.Decimal.Neighbours
import PivotedLU.Proofs.Decimal.Positional
import PivotedLU.Proofs.Decimal.Shortest
import PivotedLU.Proofs.Elimination.Columns
import PivotedLU.Proofs.Elimination.Dependence
import PivotedLU.Proofs.Elimination.Exact
import PivotedLU.Proofs.Elimination.Exchanges
import PivotedLU.Proofs.Elimination.Growth
import PivotedLU.Proofs.Elimination.Pivots
import PivotedLU.Proofs.Elimination.Recurrence
import PivotedLU.Proofs.Elimination.Reordered
import PivotedLU.Proofs.Elimination.Runs
import PivotedLU.Proofs.Elimination.Tolerance
import PivotedLU.Proofs.EntryPoints
import PivotedLU.Proofs.Exact
import PivotedLU.Proofs.Factors.Answers
import PivotedLU.Proofs.Factors.Determinant
import PivotedLU.Proofs.Factors.Factorization
import PivotedLU.Proofs.Factors.Outcome
import PivotedLU.Proofs.Factors.Parts
import PivotedLU.Proofs.Factors.Singularity
import PivotedLU.Proofs.Factors.Solution
import PivotedLU.Proofs.Factors.Tolerance
import PivotedLU.Proofs.Flat.Aliasing
import PivotedLU.Proofs.Flat.Answers
import PivotedLU.Proofs.Flat.Totality
import PivotedLU.Proofs.Frame
import PivotedLU.Proofs.Inversion
import PivotedLU.Proofs.Latex
import PivotedLU.Proofs.Literal
import PivotedLU.Proofs.Loop
import PivotedLU.Proofs.Magnitude
import PivotedLU.Proofs.Matrix.Alike
import PivotedLU.Proofs.Matrix.Checks
import PivotedLU.Proofs.Matrix.Filled
import PivotedLU.Proofs.Matrix.Identity
import PivotedLU.Proofs.Matrix.Product
import PivotedLU.Proofs.Matrix.Residual
import PivotedLU.Proofs.Matrix.Rows
import PivotedLU.Proofs.Matrix.Strict
import PivotedLU.Proofs.Matrix.Transposed
import PivotedLU.Proofs.Matrix.View
import PivotedLU.Proofs.Order
import PivotedLU.Proofs.Precedence.Causes
import PivotedLU.Proofs.Precedence.Products
import PivotedLU.Proofs.Precedence.Requests
import PivotedLU.Proofs.Product
import PivotedLU.Proofs.RowOrder
import PivotedLU.Proofs.Session.Arguments
import PivotedLU.Proofs.Session.Operations
import PivotedLU.Proofs.Session.Ownership
import PivotedLU.Proofs.Session.Reach
import PivotedLU.Proofs.Session.Steps
import PivotedLU.Proofs.Session.Strict
import PivotedLU.Proofs.Settings
import PivotedLU.Proofs.Store
import PivotedLU.Proofs.Stored.Answers
import PivotedLU.Proofs.Stored.Checks
import PivotedLU.Proofs.Stored.Copies
import PivotedLU.Proofs.Stored.Empty
import PivotedLU.Proofs.Stored.Frame
import PivotedLU.Proofs.Stored.Products
import PivotedLU.Proofs.Stored.Transposed
import PivotedLU.Proofs.Substitution
import PivotedLU.Proofs.Text.Cut
import PivotedLU.Proofs.Transposition
import PivotedLU.Random.Source
import PivotedLU.Random.Table
import PivotedLU.Report
import PivotedLU.RowOrder
import PivotedLU.Scalar
import PivotedLU.Session.Argument
import PivotedLU.Session.Basic
import PivotedLU.Session.Buffers
import PivotedLU.Session.Matrices
import PivotedLU.Session.Operation
import PivotedLU.Session.Run
import PivotedLU.Settings
import PivotedLU.Store
import PivotedLU.Stored.Elimination
import PivotedLU.Stored.Matrix
import PivotedLU.Text.Blank
import PivotedLU.Text.Case
import PivotedLU.Text.Distance
import PivotedLU.Text.Fields
import PivotedLU.Text.Integer
import PivotedLU.Text.Printable
import PivotedLU.Text.Quoted
