import PivotedLU.Command.Help
import PivotedLU.Command.Run

/-!
# The program
-/

namespace PivotedLU.Program

/-- The environment variables that the program looks at. -/
def readEnvironment : IO Environment := do
  let found ← Key.all.mapM fun k => do
    let name := Naming.standard.variableOf k.name
    return (name, ← IO.getEnv name)
  return fun name => (found.lookup name).join

/-- Runs the program on its command line and gives the exit status. -/
def runWords (words : List String) : IO UInt32 := do
  let began ← IO.monoMsNow
  let outcome := Command.run (← readEnvironment) words
  (← IO.getStdout).putStr (outcome.output ++ if outcome.needsHelp then Command.page else "")
  let ended ← IO.monoMsNow
  let elapsed := Decimal.Layout.plain.render (Float.ofNat (ended - began) / 1000)
  (← IO.getStderr).putStr (outcome.messages ⟨Text.nat ended, Command.program, elapsed⟩)
  return UInt32.ofNat outcome.status

end PivotedLU.Program

def main (words : List String) : IO UInt32 :=
  PivotedLU.Program.runWords words
