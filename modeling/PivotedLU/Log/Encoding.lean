import PivotedLU.Decimal.Layout
import PivotedLU.Log.Entry
import PivotedLU.Text.Quoted

/-!
# Log lines

Three ways to write an entry on one line.
-/

namespace PivotedLU.Log

/-- Tab-separated columns, an object, or pairs. -/
inductive Format where
  | console
  | json
  | logfmt
  deriving DecidableEq, Repr

/-- The format with exactly this name; no name means `console`. -/
def Format.ofText? (s : String) : Option Format :=
  if s = "" ∨ s = "console" then some .console
  else if s = "json" then some .json
  else if s = "logfmt" then some .logfmt
  else none

/-- What the world adds to an entry: the time, the place in the program and the time spent. -/
structure Stamp where
  time : String
  caller : String
  elapsed : String

/-- The name of the logger. -/
def loggerName : String := "lupcheck"

/-- One character inside a quoted value. -/
def escapedChar (c : Char) : List Char :=
  if c = '"' ∨ c = '\\' then ['\\', c]
  else if c = '\n' then ['\\', 'n']
  else if c = '\r' then ['\\', 'r']
  else if c = '\t' then ['\\', 't']
  else if c.toNat < 0x20 then '\\' :: 'u' :: Text.hex 4 c.toNat
  else [c]

/-- A value between double quotes. -/
def quotedValue (s : String) : String :=
  String.ofList ('"' :: (s.toList.flatMap escapedChar ++ ['"']))

/-- A value that is quoted only where its end would be unclear. -/
def bareValue (s : String) : String :=
  if s.toList.any fun c => decide (c.toNat ≤ 0x20) || c == '=' || c == '"' || c.toNat == 0xfffd
  then quotedValue s
  else s

/-- A number without exponent; one that is not finite is a text of its own. -/
def floatValue (wrap : String → String) (x : Float) : String :=
  let text := Decimal.Layout.plain.render x
  if x.isFinite then text else wrap text

/-- A value in an object. -/
def objectValue (stamp : Stamp) : Value → String
  | .integer i => Text.int i
  | .float x => floatValue quotedValue x
  | .text s => quotedValue s
  | .elapsed => stamp.elapsed

/-- A value in a pair. -/
def pairValue (stamp : Stamp) : Value → String
  | .integer i => Text.int i
  | .float x => floatValue id x
  | .text s => bareValue s
  | .elapsed => stamp.elapsed

/-- Members between braces, with a given text after each colon and comma. -/
def object (gap : String) (members : List (String × String)) : String :=
  Text.braced <|
    String.intercalate ("," ++ gap) (members.map fun (k, v) => quotedValue k ++ ":" ++ gap ++ v)

/-- Keys and values, with spaces between the pairs. -/
def pairs (members : List (String × String)) : String :=
  String.intercalate " " (members.map fun (k, v) => k ++ "=" ++ v)

/-- The entry as one line, without the line end. -/
def Format.line (format : Format) (stamp : Stamp) (e : Entry) : String :=
  match format with
  | .console =>
    String.intercalate "\t" [stamp.time, e.level.name, loggerName, stamp.caller, e.message,
      object " " (e.fields.map fun (k, v) => (k, objectValue stamp v))]
  | .json =>
    object ""
      ([("level", quotedValue e.level.name), ("ts", quotedValue stamp.time),
        ("name", quotedValue loggerName), ("caller", quotedValue stamp.caller),
        ("msg", quotedValue e.message)] ++
        e.fields.map fun (k, v) => (k, objectValue stamp v))
  | .logfmt =>
    pairs
      ([("ts", stamp.time), ("level", e.level.name), ("name", loggerName),
        ("caller", stamp.caller), ("msg", bareValue e.message)] ++
        e.fields.map fun (k, v) => (k, pairValue stamp v))

end PivotedLU.Log
