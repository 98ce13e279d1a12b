import PivotedLU.Command.Arguments
import PivotedLU.Log.Encoding
import PivotedLU.Report
import PivotedLU.Settings

/-!
# Configuration

Settings are looked up by key. The flag that is bound to a key wins over its environment variable, and
that over the default. A variable that is no number counts as zero, an empty one as not set.
-/

namespace PivotedLU

/-- The environment variables. -/
abbrev Environment := String → Option String

/-! ## Keys -/

/-- What a setting is looked up by. -/
inductive Key where
  | logLevel
  | logFormat
  | output
  | precision
  | pivotTolerance
  | size
  | seed
  | maxResidual
  deriving DecidableEq, Repr

namespace Key

def all : List Key :=
  [.logLevel, .logFormat, .output, .precision, .pivotTolerance, .size, .seed, .maxResidual]

def name : Key → String
  | .logLevel => "log_level"
  | .logFormat => "log_format"
  | .output => "output"
  | .precision => "precision"
  | .pivotTolerance => "pivot_tol"
  | .size => "n"
  | .seed => "seed"
  | .maxResidual => "max_residual"

end Key

/-- The name of the key that a flag is bound to: that of the flag with underscores for dashes. -/
def Flag.boundKey (f : Flag) : String :=
  String.ofList (f.name.toList.map fun c => if c = '-' then '_' else c)

/-- The flag that is bound to a key. -/
def Key.flag? (k : Key) : Option Flag :=
  Flag.all.find? fun f => f.boundKey == k.name

/-! ## Variables -/

/-- How the variables of keys are named. -/
structure Naming where
  /-- What stands before the key. -/
  stem : String
  /-- The characters that become underscores. -/
  replaced : List Char

/-- The names of the variables that the program reads. -/
def Naming.standard : Naming where
  stem := "LUPCHECK"
  replaced := ['.', '-']

/-- The variable of a key: stem and key in upper case. -/
def Naming.variableOf (n : Naming) (key : String) : String :=
  String.ofList ((n.stem ++ "_" ++ key).toList.map fun c =>
    if c.toUpper ∈ n.replaced then '_' else c.toUpper)

/-! ## Settings -/

namespace GivenFlags

/-- The text that a flag was given. -/
def text? (g : GivenFlags) : Flag → Option String
  | .logLevel => g.logLevel
  | .logFormat => g.logFormat
  | .output => g.output
  | _ => none

/-- The integer that a flag was given. -/
def integer? (g : GivenFlags) : Flag → Option Int64
  | .precision => g.precision
  | .size => g.size
  | .seed => g.seed
  | _ => none

/-- The number that a flag was given. -/
def float? (g : GivenFlags) : Flag → Option Float
  | .pivotTolerance => g.pivotTolerance
  | .maxResidual => g.maxResidual
  | _ => none

end GivenFlags

/-- All that a command can be told. -/
structure Configuration where
  level : Log.Level
  format : Log.Format
  output : Output
  precision : Int64
  pivotTolerance : Float
  size : Int64
  seed : Int64
  maxResidual : Float
  display : Bool

namespace Configuration

/-- The text a key has in the environment. -/
def inherited (env : Environment) (k : Key) : Option String :=
  (env (Naming.standard.variableOf k.name)).filter (· ≠ "")

/-- The setting of a key: what its flag was given, else what its variable says, else the default. -/
def lookUp {β : Type} (read : String → β) (env : Environment) (given : Flag → Option β) (k : Key)
    (default : β) : β :=
  (k.flag?.bind given).getD ((inherited env k).elim default read)

/-- The number in the text of a variable. -/
def numberIn {β : Type} [Zero β] (read : List Char → Except NumeralError β) (s : String) : β :=
  (read s.toList).toOption.getD 0

/-- The setting of a key as a text. -/
def textOf (env : Environment) (g : GivenFlags) : Key → String → String :=
  lookUp id env g.text?

/-- The setting of a key as an integer. -/
def integerOf (env : Environment) (g : GivenFlags) : Key → Int64 → Int64 :=
  lookUp (numberIn Numeral.integer) env g.integer?

/-- The setting of a key as a number. -/
def floatOf (env : Environment) (g : GivenFlags) : Key → Float → Float :=
  lookUp (numberIn Numeral.float) env g.float?

/-- The configuration from flags and environment. Whether the product is shown is not looked up by
key: only the flag says so. -/
def load (env : Environment) (g : GivenFlags) : Except SettingError Configuration := do
  let outputText := Text.lower (textOf env g .output "text")
  let output ← (Output.ofText? outputText).elim (.error (.output outputText)) .ok
  let pivotTolerance := floatOf env g .pivotTolerance 0
  if !Setting.isTolerance pivotTolerance then throw (.pivotTolerance pivotTolerance)
  let levelText := textOf env g .logLevel "info"
  let level ← (Log.Level.ofText? levelText).elim (.error (.logLevel levelText)) .ok
  let formatText := textOf env g .logFormat "console"
  let format ← (Log.Format.ofText? formatText).elim (.error (.logFormat formatText)) .ok
  return {
    level, format, output, pivotTolerance
    precision := integerOf env g .precision 15
    size := integerOf env g .size 200
    seed := integerOf env g .seed 1
    maxResidual := floatOf env g .maxResidual 1e-8
    display := g.display.getD false }

end Configuration

end PivotedLU
