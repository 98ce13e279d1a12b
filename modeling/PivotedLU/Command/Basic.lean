import PivotedLU.Text.Case
import PivotedLU.Text.Distance

/-!
# Commands
-/

namespace PivotedLU

/-- What can be asked about one matrix. -/
inductive Evaluation where
  | determinant
  | inverse
  | trace
  | transpose
  deriving DecidableEq, Repr

/-- What the program can do. -/
inductive Command where
  | selfcheck
  | evaluate (e : Evaluation)
  | solve
  deriving DecidableEq, Repr

namespace Command

/-- The name of the program. -/
def program : String := "lupcheck"

def name : Command → String
  | .selfcheck => "selfcheck"
  | .evaluate .determinant => "det"
  | .evaluate .inverse => "inv"
  | .evaluate .trace => "trace"
  | .evaluate .transpose => "transpose"
  | .solve => "solve"

def all : List Command :=
  [.selfcheck, .evaluate .determinant, .evaluate .inverse, .evaluate .trace,
    .evaluate .transpose, .solve]

def ofName? (s : String) : Option Command :=
  all.find? fun c => c.name == s

/-- The words that ask about the program itself. -/
def auxiliary : List String :=
  ["completion", "help"]

/-! ## Suggestions -/

/-- Whether a name is at most two edits away from a word, or begins with it, in any case. -/
def isNear (word name : String) : Bool :=
  let word := Text.lower word
  let name := Text.lower name
  decide (Text.distance word.toUTF8.toList name.toUTF8.toList ≤ 2) ||
    word.toList.isPrefixOf name.toList

/-- The names a wrong word may stand for. -/
def suggestions (word : String) : List String :=
  (all.map name ++ ["completion"]).filter (isNear word)

end Command

end PivotedLU
