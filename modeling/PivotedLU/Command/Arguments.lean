import PivotedLU.Command.Error

/-!
# Reading a command line

Flags may stand anywhere; `--` ends them. The command is the first word that is neither a flag nor
the value of one.
-/

namespace PivotedLU

/-- The flags that were given; the last value of a flag counts. -/
structure GivenFlags where
  logLevel : Option String := none
  logFormat : Option String := none
  output : Option String := none
  precision : Option Int64 := none
  pivotTolerance : Option Float := none
  size : Option Int64 := none
  seed : Option Int64 := none
  maxResidual : Option Float := none
  display : Option Bool := none
  help : Option Bool := none

/-- The flags and the other words. -/
structure Arguments where
  flags : GivenFlags := {}
  words : List String := []

namespace Arguments

/-- The value of a flag, or why its text is none. -/
def readValue {β : Type} (f : Flag) (value : String) (r : Except NumeralError β) :
    Except UsageError β :=
  r.mapError (.invalidValue f value)

/-- Sets a flag. -/
def setFlag (f : Flag) (value : String) (g : GivenFlags) : Except UsageError GivenFlags :=
  let integer := readValue f value (Numeral.integer value.toList)
  let float := readValue f value (Numeral.float value.toList)
  let truth := readValue f value (Numeral.boolean value)
  match f with
  | .logLevel => .ok { g with logLevel := some value }
  | .logFormat => .ok { g with logFormat := some value }
  | .output => .ok { g with output := some value }
  | .precision => integer.map fun i => { g with precision := some i }
  | .pivotTolerance => float.map fun x => { g with pivotTolerance := some x }
  | .size => integer.map fun i => { g with size := some i }
  | .seed => integer.map fun i => { g with seed := some i }
  | .maxResidual => float.map fun x => { g with maxResidual := some x }
  | .display => truth.map fun b => { g with display := some b }
  | .help => truth.map fun b => { g with help := some b }

/-- Sets a flag. -/
def set (a : Arguments) (f : Flag) (value : String) : Except UsageError Arguments := do
  let flags ← setFlag f value a.flags
  return { a with flags }

/-- A flag that waits for its value, and the error if none comes. -/
structure Pending where
  flag : Flag
  missing : UsageError

/-- The first byte of a character's encoding, as a character of its own. -/
def leadByte (c : Char) : Char :=
  let n := c.toNat
  if n < 0x80 then c
  else if n < 0x800 then Char.ofNat (0xc0 + n / 0x40)
  else if n < 0x10000 then Char.ofNat (0xe0 + n / 0x1000)
  else Char.ofNat (0xf0 + n / 0x40000)

/-- Reads what follows two dashes in `word`. -/
def readLong (c : Option Command) (word : String) (body : List Char) (a : Arguments) :
    Except UsageError (Arguments × Option Pending) :=
  match body with
  | [] | '-' :: _ | '=' :: _ => .error (.badSyntax word)
  | _ =>
    let name := String.ofList (body.takeWhile (· != '='))
    match Flag.ofName? c name with
    | none => .error (.unknownFlag name)
    | some f =>
      match body.dropWhile (· != '=') with
      | _ :: value => (a.set f (String.ofList value)).map (·, none)
      | [] =>
        if f.kind = .truth then (a.set f "true").map (·, none)
        else .ok (a, some ⟨f, .missingValue word⟩)

/-- Reads a group of letters after one dash. A flag that takes a value takes the rest of the group,
also after an equals sign, or else the next word. A group that goes on with `test.` says no more. -/
def readGroup (c : Option Command) :
    List Char → Arguments → Except UsageError (Arguments × Option Pending)
  | [], a => .ok (a, none)
  | x :: rest, a =>
    let group := String.ofList (x :: rest)
    if "test.".toList.isPrefixOf (x :: rest) then .ok (a, none)
    else
      match Flag.ofLetter? c x with
      | none => .error (.unknownLetter (leadByte x) group)
      | some f =>
        match rest with
        | '=' :: v :: value => (a.set f (String.ofList (v :: value))).map (·, none)
        | _ =>
          if f.kind = .truth then
            match a.set f "true" with
            | .ok a => readGroup c rest a
            | .error e => .error e
          else if rest = [] then .ok (a, some ⟨f, .missingLetterValue x group⟩)
          else (a.set f (String.ofList rest)).map (·, none)

/-- Reads one word where no value is waited for. -/
def readWord (c : Option Command) (word : String) (a : Arguments) :
    Except UsageError (Arguments × Option Pending) :=
  match word.toList with
  | '-' :: '-' :: body => readLong c word body a
  | '-' :: x :: rest => readGroup c (x :: rest) a
  | _ => .ok ({ a with words := a.words ++ [word] }, none)

/-- Reads words one after the other. -/
def readAll (c : Option Command) : Option Pending → List String → Arguments →
    Except UsageError Arguments
  | none, [], a => .ok a
  | some p, [], _ => .error p.missing
  | some p, value :: rest, a => do
    let a ← a.set p.flag value
    readAll c none rest a
  | none, word :: rest, a =>
    if word = "--" then .ok { a with words := a.words ++ rest }
    else do
      let (a, pending) ← readWord c word a
      readAll c pending rest a

/-- Reads the words after the name of a command. -/
def read (c : Option Command) (words : List String) : Except UsageError Arguments :=
  readAll c none words {}

end Arguments

namespace Command

/-- Whether a word looks like a flag that takes the next word as its value. -/
def takesNext (word : String) : Bool :=
  let chars := word.toList
  !chars.contains '=' &&
    ("--".toList.isPrefixOf chars || ("-".toList.isPrefixOf chars && word.utf8ByteSize == 2))

/-- The first word that looks neither like a flag nor like the value of one. -/
def firstWord : List String → Option String
  | [] => none
  | word :: rest =>
    if word = "--" then none
    else if takesNext word then
      match rest with
      | [] | [_] => none
      | _ :: rest => firstWord rest
    else if word = "" ∨ "-".toList.isPrefixOf word.toList then firstWord rest
    else some word

end Command

end PivotedLU
