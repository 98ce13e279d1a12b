import PivotedLU.Factors
import PivotedLU.Store

/-!
# Elimination in a store
-/

namespace PivotedLU.Window

variable {α : Type} [Scalar α]

/-- Factors the `n × n` block at the start of a window where it stands. The cells hold what the
elimination left, also when it found no pivot. -/
def eliminate (tol : α) (n : Nat) (w : Window) (s : Store α) : Result RowOrder × Store α :=
  match Kernel.decompose w.cells n (RowOrder.identity n) tol s with
  | .error f => (.error (.fault f), s)
  | .ok e =>
    match e.stopped with
    | none => (.ok e.order, e.state)
    | some _ =>
      match Kernel.degenerateColumn w.cells.read n tol e.state with
      | .error f => (.error (.fault f), e.state)
      | .ok column => (.error (singularAt column), e.state)

end PivotedLU.Window
