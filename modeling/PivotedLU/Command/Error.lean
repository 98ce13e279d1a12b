import PivotedLU.Command.Flag
import PivotedLU.Decimal.Layout
import PivotedLU.Error
import PivotedLU.Matrix.Shape
import PivotedLU.Numeral

/-!
# Errors of commands
-/

namespace PivotedLU

/-- What is wrong with the words of a command line. -/
inductive UsageError where
  | unknownCommand (word : String)
  | unexpectedWord (command : Command) (word : String)
  | wordCount (expected received : Nat)
  | badSyntax (word : String)
  | unknownFlag (name : String)
  | unknownLetter (letter : Char) (group : String)
  | missingValue (word : String)
  | missingLetterValue (letter : Char) (group : String)
  | invalidValue (flag : Flag) (value : String) (reason : NumeralError)
  deriving DecidableEq, Repr

/-- What is wrong with the settings of a command. -/
inductive SettingError where
  | output (text : String)
  | pivotTolerance (x : Float)
  | logLevel (text : String)
  | logFormat (text : String)

/-- Why a command fails. -/
inductive CommandError where
  | usage (e : UsageError)
  | setting (e : SettingError)
  | size (n : Int)
  | rightHandSide (shape : Shape)
  | residual (worst : Float) (row col : Nat) (limit : Float)
  | failure (f : Failure)

/-! ## Wording -/

/-- The reader of a kind of value, as messages call it. -/
def FlagKind.reader : FlagKind → String
  | .text => ""
  | .integer => "strconv.ParseInt"
  | .float => "strconv.ParseFloat"
  | .truth => "strconv.ParseBool"

def NumeralError.message : NumeralError → String
  | .syntactic => "invalid syntax"
  | .range => "value out of range"

/-- The names that a wrong word may stand for, each on its line. -/
def suggestionText (word : String) : String :=
  match Command.suggestions word with
  | [] => ""
  | names => "\n\nDid you mean this?\n" ++ String.join (names.map fun s => "\t" ++ s ++ "\n")

def UsageError.message : UsageError → String
  | .unknownCommand word =>
    "unknown command " ++ Text.quoted word ++ " for " ++ Text.quoted Command.program ++
      suggestionText word
  | .unexpectedWord command word =>
    "unknown command " ++ Text.quoted word ++ " for " ++
      Text.quoted (Command.program ++ " " ++ command.name)
  | .wordCount expected received =>
    "accepts " ++ Text.nat expected ++ " arg(s), received " ++ Text.nat received
  | .badSyntax word => "bad flag syntax: " ++ word
  | .unknownFlag name => "unknown flag: --" ++ name
  | .unknownLetter letter group =>
    "unknown shorthand flag: " ++ Text.quotedChar letter ++ " in -" ++ group
  | .missingValue word => "flag needs an argument: " ++ word
  | .missingLetterValue letter group =>
    "flag needs an argument: " ++ Text.quotedChar letter ++ " in -" ++ group
  | .invalidValue flag value reason =>
    "invalid argument " ++ Text.quoted value ++ " for " ++ Text.quoted flag.label ++ " flag: " ++
      flag.kind.reader ++ ": parsing " ++ Text.quoted value ++ ": " ++ reason.message

def SettingError.message : SettingError → String
  | .output text =>
    "unknown output format " ++ Text.quoted text ++ " (want text, latex or yaml)"
  | .pivotTolerance x =>
    "pivot tolerance must be finite and >= 0, got " ++ Decimal.Layout.general.render x
  | .logLevel text =>
    "invalid log level " ++ Text.quoted text ++ ": unrecognized level: " ++ Text.quoted text
  | .logFormat text =>
    "unknown log format " ++ Text.quoted text ++ " (want console, json or logfmt)"

def Failure.message : Failure → String
  | .error e => e.message
  | .refused r => r.message
  | .fault _ => "runtime error"

def CommandError.message : CommandError → String
  | .usage e => e.message
  | .setting e => e.message
  | .size n => "n must be > 0, got " ++ Text.int n
  | .rightHandSide shape =>
    "right-hand side must be a single row or column, got " ++ Text.int shape.rows.toInt ++ "x" ++
      Text.int shape.cols.toInt
  | .residual worst row col limit =>
    "max residual " ++ Decimal.Layout.general.render worst ++ " at " ++ positionText row col ++
      " exceeds " ++ Decimal.Layout.general.render limit
  | .failure f => f.message

end PivotedLU
