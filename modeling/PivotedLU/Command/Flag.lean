import PivotedLU.Command.Basic

/-!
# Flags
-/

namespace PivotedLU

/-- What can be set on the command line. -/
inductive Flag where
  | logLevel
  | logFormat
  | output
  | precision
  | pivotTolerance
  | size
  | seed
  | maxResidual
  | display
  | help
  deriving DecidableEq, Repr

/-- The kind of value a flag takes. -/
inductive FlagKind where
  | text
  | integer
  | float
  | truth
  deriving DecidableEq, Repr

namespace Flag

def all : List Flag :=
  [.logLevel, .logFormat, .output, .precision, .pivotTolerance, .size, .seed, .maxResidual,
    .display, .help]

def name : Flag → String
  | .logLevel => "log-level"
  | .logFormat => "log-format"
  | .output => "output"
  | .precision => "precision"
  | .pivotTolerance => "pivot-tol"
  | .size => "n"
  | .seed => "seed"
  | .maxResidual => "max-residual"
  | .display => "show"
  | .help => "help"

/-- The letter that stands for a flag. -/
def letter : Flag → Option Char
  | .output => some 'o'
  | .help => some 'h'
  | _ => none

def kind : Flag → FlagKind
  | .logLevel | .logFormat | .output => .text
  | .precision | .size | .seed => .integer
  | .pivotTolerance | .maxResidual => .float
  | .display | .help => .truth

/-- Whether a flag may stand with a command, or without one. -/
def belongsTo (f : Flag) (c : Option Command) : Bool :=
  match f with
  | .size | .seed | .maxResidual | .display => c == some .selfcheck
  | _ => true

/-- The spelling of a flag in messages. -/
def label (f : Flag) : String :=
  match f.letter with
  | some c => "-" ++ String.singleton c ++ ", --" ++ f.name
  | none => "--" ++ f.name

/-- The flag of a command with this name. -/
def ofName? (c : Option Command) (s : String) : Option Flag :=
  all.find? fun f => f.name == s && f.belongsTo c

/-- The flag of a command with this letter. -/
def ofLetter? (c : Option Command) (x : Char) : Option Flag :=
  all.find? fun f => f.letter == some x && f.belongsTo c

end Flag

end PivotedLU
