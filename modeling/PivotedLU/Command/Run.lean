import PivotedLU.Command.Execution

/-!
# Running the program

First the command is found, then its flags are read, then its words are counted, then the
configuration is loaded; the first step that fails decides.
-/

namespace PivotedLU.Command

/-- All that a run shows. -/
structure Outcome where
  /-- The lines of the log, given what the world adds to them. -/
  log : Log.Stamp → List String := fun _ => []
  output : String := ""
  error : Option CommandError := none
  /-- The run ends with a description of the program, which is not part of `output`. -/
  needsHelp : Bool := false

namespace Outcome

/-- A run that fails before its command begins. -/
def failed (e : CommandError) : Outcome :=
  { error := some e }

/-- A run that asks how to use the program. -/
def help : Outcome :=
  { needsHelp := true }

/-- The exit status. -/
def status (o : Outcome) : Nat :=
  if o.error.isSome then 1 else 0

/-- The line that follows an error. -/
def hint : CommandError → String
  | .usage (.unknownCommand _) => "Run '" ++ program ++ " --help' for usage.\n"
  | _ => ""

/-- The log, and the error if there is one. -/
def messages (o : Outcome) (stamp : Log.Stamp) : String :=
  String.join ((o.log stamp).map (· ++ "\n")) ++
    o.error.elim "" fun e => "Error: " ++ e.message ++ "\n" ++ hint e

end Outcome

/-- Runs a command with all its words read. -/
def start (config : Configuration) (i : Invocation) : Outcome :=
  let (result, transcript) := (i.execute config).run.run {}
  let shown := transcript.entries.filter fun e => decide (config.level.rank ≤ e.level.rank)
  { log := fun stamp => shown.map (config.format.line stamp)
    output := transcript.output
    error := match result with
      | .ok _ => none
      | .error e => some e }

/-- Reads the flags and words of a command and runs it. -/
def runCommand (env : Environment) (c : Command) (words : List String) : Outcome :=
  match Arguments.read (some c) words with
  | .error e => .failed (.usage e)
  | .ok a =>
    if a.flags.help = some true then .help
    else
      match Invocation.make c a.words with
      | .error e => .failed (.usage e)
      | .ok i =>
        match Configuration.load env a.flags with
        | .error e => .failed (.setting e)
        | .ok config => start config i

/-- Runs the program on the words of its command line. -/
def run (env : Environment) (words : List String) : Outcome :=
  match firstWord words with
  | none =>
    match Arguments.read none words with
    | .error e => .failed (.usage e)
    | .ok _ => .help
  | some word =>
    match ofName? word with
    | some c => runCommand env c (words.erase word)
    | none => if word ∈ auxiliary then .help else .failed (.usage (.unknownCommand word))

end PivotedLU.Command
