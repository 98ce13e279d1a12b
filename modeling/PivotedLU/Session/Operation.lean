import PivotedLU.Session.Argument

/-!
# Operations of a session
-/

namespace PivotedLU.Session

/-- The choices given with an operation. -/
abbrev Choices := List (Option Setting)

/-- Operations on matrices and factors. -/
inductive MatrixOperation where
  -- building
  | zeros (shape : Shape)
  | identity (n : Int64)
  | ofData (shape : Shape) (data : VectorArgument) (choices : Choices)
  | ofRows (rows : List VectorArgument) (choices : Choices)
  | parse (text : String) (choices : Choices)
  | keep (m : MatrixArgument)
  | settings (choices : Choices)
  -- single matrices
  | look (m : MatrixArgument)
  | shape (m : MatrixArgument)
  | entry (m : MatrixArgument) (i j : Int64)
  | setEntry (m : MatrixArgument) (i j : Int64) (v : Float)
  | copy (m : MatrixArgument)
  | entries (m : MatrixArgument)
  | text (m : MatrixArgument)
  | latex (m : MatrixArgument) (places : Int64)
  -- arithmetic
  | trace (m : MatrixArgument)
  | transpose (m : MatrixArgument)
  | transposeInPlace (m : MatrixArgument)
  | multiply (a b : MatrixArgument)
  | multiplyInto (dst a b : MatrixArgument)
  | allClose (a b : MatrixArgument) (rtol atol : Float)
  | isIdentity (m : MatrixArgument) (choices : Choices)
  | identityResidual (m : MatrixArgument)
  -- factors
  | factorize (m : MatrixArgument) (choices : Choices)
  | factorizeInPlace (m : MatrixArgument) (choices : Choices)
  | solve (m : MatrixArgument) (b : VectorArgument) (choices : Choices)
  | inverse (m : MatrixArgument) (choices : Choices)
  | inverseInPlace (a dst : MatrixArgument) (choices : Choices)
  | determinant (m : MatrixArgument) (choices : Choices)
  | determinantInPlace (m : MatrixArgument) (choices : Choices)
  | factors (f : String)
  | lower (f : String)
  | upper (f : String)
  | permutation (f : String)
  | factorsSolve (f : String) (b : VectorArgument)
  | factorsSolveInto (x b : VectorArgument) (f : String)
  | factorsInverse (f : String)
  | factorsInverseInto (dst : MatrixArgument) (f : String)
  | factorsDeterminant (f : String)
  -- checks
  | checkPresent (m : MatrixArgument)
  | checkSquare (m : MatrixArgument)
  | checkSameShape (a b : MatrixArgument)
  | checkMultipliable (a b : MatrixArgument)
  | checkLength (x : VectorArgument) (n : Int64)
  | checkFlatSquare (a : VectorArgument) (n : Int64)
  | checkNoAlias (inputs : List VectorArgument) (out : VectorArgument)

/-- Operations on flat buffers. -/
inductive FlatOperation where
  | keep (data : VectorArgument)
  | look (a : VectorArgument)
  | decompose (a : VectorArgument) (n : Int64)
  | solve (a : VectorArgument) (p : OrderArgument) (b : VectorArgument) (n : Int64)
  | inverse (a ia : VectorArgument) (n : Int64)
  | determinant (a : VectorArgument) (n : Int64)
  | trace (a : VectorArgument) (n : Int64)
  | transpose (a : VectorArgument) (n : Int64)
  | multiply (r x y : VectorArgument) (n : Int64)
  | overlaps (a b : VectorArgument)

/-- The kernels themselves, which check nothing. -/
inductive KernelOperation where
  | decompose (a : VectorArgument) (p : OrderArgument) (n : Int64) (tol : Float)
  | degenerateColumn (a : VectorArgument) (n : Int64) (tol : Float)
  | solve (x a : VectorArgument) (p : OrderArgument) (b : VectorArgument) (n : Int64)
  | invert (ia a : VectorArgument) (p : OrderArgument) (n : Int64)
  | determinant (a : VectorArgument) (p : OrderArgument) (n : Int64)
  | trace (a : VectorArgument) (n : Int64)
  | transpose (a : VectorArgument) (n : Int64)
  | multiply (r x y : VectorArgument) (n : Int64)

/-- Operations on row orders. -/
inductive OrderOperation where
  | make (n : Int64)
  | reset (p : OrderArgument)
  | dimension (p : OrderArgument)
  | swaps (p : OrderArgument)
  | sign (p : OrderArgument)
  | rows (p : OrderArgument)
  | isValid (p : OrderArgument)

/-- All operations of a session. -/
inductive Operation where
  | matrix (op : MatrixOperation)
  | flat (op : FlatOperation)
  | kernel (op : KernelOperation)
  | order (op : OrderOperation)

end PivotedLU.Session
