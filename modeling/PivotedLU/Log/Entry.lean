import PivotedLU.Text.Case

/-!
# Log entries
-/

namespace PivotedLU.Log

/-- How important an entry is. -/
inductive Level where
  | debug
  | info
  | warn
  | error
  | critical
  | abort
  | fatal
  deriving DecidableEq, Repr

namespace Level

def name : Level → String
  | .debug => "debug"
  | .info => "info"
  | .warn => "warn"
  | .error => "error"
  | .critical => "dpanic"
  | .abort => "panic"
  | .fatal => "fatal"

def all : List Level :=
  [.debug, .info, .warn, .error, .critical, .abort, .fatal]

def rank : Level → Nat
  | .debug => 0
  | .info => 1
  | .warn => 2
  | .error => 3
  | .critical => 4
  | .abort => 5
  | .fatal => 6

/-- The level with a name in any case; no name means `info`. -/
def ofText? (s : String) : Option Level :=
  if s = "" then some .info else all.find? fun level => level.name == Text.lower s

end Level

/-- What an entry can record. -/
inductive Value where
  | integer (i : Int)
  | float (x : Float)
  | text (s : String)
  | elapsed

/-- A message with its fields. -/
structure Entry where
  level : Level
  message : String
  fields : List (String × Value)

end PivotedLU.Log
