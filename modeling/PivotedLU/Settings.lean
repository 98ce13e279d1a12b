import PivotedLU.Error

/-!
# Settings

The choices of a caller: pivot tolerance, tolerance of the identity test, and whether entries must
be finite. Of several settings of one kind the last one counts.
-/

namespace PivotedLU

/-- The choices in force. -/
structure Settings where
  pivotTolerance : Float := 0
  epsilon : Float := 1e-9
  strict : Bool := true

/-- One choice of a caller. -/
inductive Setting where
  | pivotTolerance (tol : Float)
  | epsilon (eps : Float)
  | strict (on : Bool)

namespace Setting

/-- A tolerance is finite and not negative. -/
def isTolerance (x : Float) : Bool :=
  x.isFinite && !(x < 0)

/-- Refuses tolerances that are none. -/
def check : Setting → Result Unit
  | .pivotTolerance tol => if isTolerance tol then .ok () else .error (.refused .pivotTolerance)
  | .epsilon eps => if isTolerance eps then .ok () else .error (.refused .epsilon)
  | .strict _ => .ok ()

/-- Puts a choice in force. -/
def apply (s : Settings) : Setting → Settings
  | .pivotTolerance tol => { s with pivotTolerance := tol }
  | .epsilon eps => { s with epsilon := eps }
  | .strict on => { s with strict := on }

end Setting

namespace Settings

/-- The settings after the given choices, from first to last; an empty choice changes nothing. -/
def resolve (choices : List (Option Setting)) : Settings :=
  choices.foldl (fun s choice => choice.elim s (Setting.apply s)) {}

/-- Refuses the first choice that is no tolerance. -/
def check : List (Option Setting) → Result Unit
  | [] => .ok ()
  | none :: rest => check rest
  | some choice :: rest =>
    match choice.check with
    | .ok _ => check rest
    | .error f => .error f

/-- Checks all choices, then puts them in force. -/
def make (choices : List (Option Setting)) : Result Settings :=
  match check choices with
  | .ok _ => .ok (resolve choices)
  | .error f => .error f

end Settings

end PivotedLU
