import PivotedLU.Session.Buffers
import PivotedLU.Session.Matrices

/-!
# Running operations
-/

namespace PivotedLU.Session

/-- Performs an operation; what it makes is kept under `name`. -/
def Operation.perform (name : Option String) : Operation → Step Reply
  | .matrix op => op.perform name
  | .flat op => op.perform name
  | .kernel op => op.perform
  | .order op => op.perform name

/-- The reply to an operation and the session after it. An operation that is refused before it
begins, or that faults, leaves the session alone. -/
def step (s : Session) (name : Option String) (op : Operation) : Reply × Session :=
  match (op.perform name).run s with
  | .ok (reply, t) => (reply, t)
  | .error r => (⟨.error r, []⟩, s)

/-- Runs operations one after the other; one that fails does not stop the rest. -/
def run (s : Session) : List (Option String × Operation) → List Reply × Session
  | [] => ([], s)
  | (name, op) :: rest =>
    let (reply, s) := s.step name op
    let (replies, s) := run s rest
    (reply :: replies, s)

end PivotedLU.Session
