import PivotedLU.Command.Run
import PivotedLU.Proofs.Command.Arguments

/-!
# Flags and environment variables

A flag that is set on the command line and the same text in the variable of that flag lead to the same
run: the same log, output and error. The flag `show` is the exception, since no command looks at its
variable.
-/

namespace PivotedLU

/-! ## Variables -/

theorem Flag.mem_all (f : Flag) : f ∈ all := by
  cases f <;> decide

/-- The environment variable of a flag: its name in upper case with underscores. -/
def Flag.environmentName (f : Flag) : String :=
  "LUPCHECK_" ++ String.ofList (f.name.toList.map fun c => if c = '-' then '_' else c.toUpper)

/-- No two flags share a variable. -/
theorem Flag.environmentName_injective {f k : Flag} (h : f.environmentName = k.environmentName) :
    f = k := by
  have hall : ∀ f ∈ all, ∀ k ∈ all, f.environmentName = k.environmentName → f = k := by decide
  exact hall f f.mem_all k k.mem_all h

/-- The environment with the variable of a flag set. -/
def Environment.set (env : Environment) (f : Flag) (value : String) : Environment :=
  fun name => if name = f.environmentName then some value else env name

namespace Key

/-- The flag for the setting of a key. -/
def flag : Key → Flag
  | logLevel => .logLevel
  | logFormat => .logFormat
  | output => .output
  | precision => .precision
  | pivotTolerance => .pivotTolerance
  | size => .size
  | seed => .seed
  | maxResidual => .maxResidual

theorem flag?_eq (k : Key) : k.flag? = some k.flag := by
  cases k <;> decide

theorem variableOf_name (k : Key) : Naming.standard.variableOf k.name = k.flag.environmentName := by
  cases k <;> decide

/-- No key stands for the flag `show`. -/
theorem display_ne_flag (k : Key) : Flag.display ≠ k.flag := by
  cases k <;> decide

end Key

namespace Configuration

variable {β : Type} {f : Flag} {value : String}

theorem inherited_set_self (env : Environment) (k : Key) (hvalue : value ≠ "") :
    inherited (env.set k.flag value) k = some value := by
  simp [inherited, Environment.set, k.variableOf_name, hvalue]

theorem inherited_set_of_ne (env : Environment) (value : String) {k : Key} (h : f ≠ k.flag) :
    inherited (env.set f value) k = inherited env k := by
  have hname : k.flag.environmentName ≠ f.environmentName := fun heq =>
    h (Flag.environmentName_injective heq).symm
  simp [inherited, Environment.set, k.variableOf_name, hname]

/-- What a variable says is what its flag would have been given. -/
theorem lookUp_set (read : String → β) (env : Environment) {given given' : Flag → Option β}
    (hvalue : value ≠ "") (k : Key)
    (hgiven : given' k.flag = (given k.flag <|> if f = k.flag then some (read value) else none))
    (default : β) :
    lookUp read (env.set f value) given k default = lookUp read env given' k default := by
  rw [lookUp, lookUp, k.flag?_eq, Option.bind_some, Option.bind_some, hgiven]
  split
  next heq =>
    subst heq
    rw [inherited_set_self env k hvalue]
    cases given k.flag <;> rfl
  next hne =>
    rw [inherited_set_of_ne env value hne]
    cases given k.flag <;> rfl

theorem lookUp_set_display (read : String → β) (env : Environment) (value : String)
    (given : Flag → Option β) (k : Key) (default : β) :
    lookUp read (env.set .display value) given k default = lookUp read env given k default := by
  rw [lookUp, inherited_set_of_ne env value k.display_ne_flag, lookUp]

/-- A text that can be read is the number in it. -/
theorem toOption_eq_numberIn [Zero β] {read : List Char → Except NumeralError β} {p : Prop} [Decidable p]
    (hread : p → ∃ x, read value.toList = .ok x) :
    (if p then (read value.toList).toOption else none) = if p then some (numberIn read value) else none := by
  split
  next hp =>
    obtain ⟨x, hx⟩ := hread hp
    rw [numberIn, hx]
    rfl
  next => rfl

end Configuration

/-! ## One flag -/

/-- One flag with the value of its text. -/
def GivenFlags.only (f : Flag) (value : String) : GivenFlags :=
  let integer := (Numeral.integer value.toList).toOption
  let float := (Numeral.float value.toList).toOption
  let truth := (Numeral.boolean value).toOption
  { logLevel := if f = .logLevel then some value else none
    logFormat := if f = .logFormat then some value else none
    output := if f = .output then some value else none
    precision := if f = .precision then integer else none
    pivotTolerance := if f = .pivotTolerance then float else none
    size := if f = .size then integer else none
    seed := if f = .seed then integer else none
    maxResidual := if f = .maxResidual then float else none
    display := if f = .display then truth else none
    help := if f = .help then truth else none }

namespace GivenFlags

variable {f j : Flag} {value : String}

theorem text?_orElse_only (g : GivenFlags) (hj : j.kind = .text) :
    (g.orElse (only f value)).text? j = (g.text? j <|> if f = j then some value else none) := by
  cases j with
  | logLevel | logFormat | output => rfl
  | _ => cases hj

theorem integer?_orElse_only (g : GivenFlags) (hj : j.kind = .integer) :
    (g.orElse (only f value)).integer? j =
      (g.integer? j <|> if f = j then (Numeral.integer value.toList).toOption else none) := by
  cases j with
  | precision | size | seed => rfl
  | _ => cases hj

theorem float?_orElse_only (g : GivenFlags) (hj : j.kind = .float) :
    (g.orElse (only f value)).float? j =
      (g.float? j <|> if f = j then (Numeral.float value.toList).toOption else none) := by
  cases j with
  | pivotTolerance | maxResidual => rfl
  | _ => cases hj

end GivenFlags

namespace Arguments

variable {f : Flag} {value : String} {base : GivenFlags}

theorem readValue_map_eq_ok {β : Type} {r : Except NumeralError β} {g : β → GivenFlags}
    (h : (readValue f value r).map g = .ok base) : ∃ v, r = .ok v ∧ g v = base := by
  cases r with
  | error e => cases h
  | ok v => exact ⟨v, rfl, Except.ok.inj h⟩

/-- A flag is set only from text that its kind of value can be read from. -/
theorem setFlag_empty (h : setFlag f value {} = .ok base) :
    base = .only f value ∧
      (f.kind = .integer → ∃ i, Numeral.integer value.toList = .ok i) ∧
      (f.kind = .float → ∃ x, Numeral.float value.toList = .ok x) := by
  cases f with
  | logLevel | logFormat | output =>
      cases h
      exact ⟨rfl, fun hkind => absurd hkind (by decide), fun hkind => absurd hkind (by decide)⟩
  | precision | size | seed =>
      obtain ⟨i, hread, rfl⟩ := readValue_map_eq_ok h
      refine ⟨?_, fun _ => ⟨i, hread⟩, fun hkind => absurd hkind (by decide)⟩
      simp [GivenFlags.only, hread, Except.toOption]
  | pivotTolerance | maxResidual =>
      obtain ⟨x, hread, rfl⟩ := readValue_map_eq_ok h
      refine ⟨?_, fun hkind => absurd hkind (by decide), fun _ => ⟨x, hread⟩⟩
      simp [GivenFlags.only, hread, Except.toOption]
  | display | help =>
      obtain ⟨b, hread, rfl⟩ := readValue_map_eq_ok h
      refine ⟨?_, fun hkind => absurd hkind (by decide), fun hkind => absurd hkind (by decide)⟩
      simp [GivenFlags.only, hread, Except.toOption]

end Arguments

/-! ## Configurations -/

namespace Configuration

variable {env env' : Environment} {g g' : GivenFlags} {f : Flag} {value : String}
  {base : GivenFlags}

/-- Flags and variables that say the same of every setting, each looked up as what it is. -/
structure Agree (env : Environment) (g : GivenFlags) (env' : Environment) (g' : GivenFlags) :
    Prop where
  text (k : Key) (hk : k.flag.kind = .text) (default : String) :
    textOf env g k default = textOf env' g' k default
  integer (k : Key) (hk : k.flag.kind = .integer) (default : Int64) :
    integerOf env g k default = integerOf env' g' k default
  float (k : Key) (hk : k.flag.kind = .float) (default : Float) :
    floatOf env g k default = floatOf env' g' k default
  display : g.display = g'.display

theorem Agree.load_eq (h : Agree env g env' g') : load env g = load env' g' := by
  unfold load
  rw [h.text .output rfl, h.text .logLevel rfl, h.text .logFormat rfl, h.integer .precision rfl,
    h.integer .size rfl, h.integer .seed rfl, h.float .pivotTolerance rfl, h.float .maxResidual rfl,
    h.display]

/-- A variable says what the flag would have said. -/
theorem agree_set (env : Environment) (g : GivenFlags)
    (hset : Arguments.setFlag f value {} = .ok base) (hvalue : value ≠ "") (hdisplay : f ≠ .display) :
    Agree (env.set f value) g env (g.orElse base) := by
  -- The variable of a number that cannot be read counts as zero, so the flag must have been accepted.
  obtain ⟨rfl, hinteger, hfloat⟩ := Arguments.setFlag_empty hset
  constructor
  case text =>
    intro k hk
    exact lookUp_set id env hvalue k (g.text?_orElse_only hk)
  case integer =>
    intro k hk
    refine lookUp_set _ env hvalue k ?_
    rw [g.integer?_orElse_only hk, toOption_eq_numberIn fun heq : f = k.flag => hinteger (heq ▸ hk)]
  case float =>
    intro k hk
    refine lookUp_set _ env hvalue k ?_
    rw [g.float?_orElse_only hk, toOption_eq_numberIn fun heq : f = k.flag => hfloat (heq ▸ hk)]
  case display => simp [GivenFlags.orElse, GivenFlags.only, hdisplay]

/-- No setting is taken from the variable of `show`. -/
theorem agree_set_display (env : Environment) (g : GivenFlags) (value : String) :
    Agree (env.set .display value) g env g where
  text k _ := lookUp_set_display _ env value _ k
  integer k _ := lookUp_set_display _ env value _ k
  float k _ := lookUp_set_display _ env value _ k
  display := rfl

end Configuration

/-! ## Runs -/

namespace Command

open Arguments

variable {c : Command} {f : Flag} {value : String} {base : GivenFlags} {before : List String}

/-- Taking a positional word out of a line leaves an assignment where it stands. -/
theorem erase_assign {word : String} (hword : IsPositional word) (f : Flag) (value : String)
    (hbefore : ∀ w ∈ before, IsPositional w) (after : List String) :
    ∃ before' after', (∀ w ∈ before', IsPositional w) ∧
      (before ++ f.assign value :: after).erase word = before' ++ f.assign value :: after' ∧
      (before ++ after).erase word = before' ++ after' := by
  have hne : f.assign value ≠ word := fun heq =>
    not_isPositional_assign f value (heq ▸ hword)
  by_cases hmem : word ∈ before
  · refine ⟨before.erase word, after, fun w hw => hbefore w (List.mem_of_mem_erase hw), ?_, ?_⟩
    · exact List.erase_append_left _ hmem
    · exact List.erase_append_left _ hmem
  · refine ⟨before, after.erase word, hbefore, ?_, ?_⟩
    · rw [List.erase_append_right _ hmem, List.erase_cons_tail (by simpa using hne)]
    · exact List.erase_append_right _ hmem

theorem runCommand_assign (env : Environment) (hbelongs : f.belongsTo (some c) = true)
    (hset : setFlag f value {} = .ok base) (hvalue : value ≠ "") (hhelp : f ≠ .help)
    (hdisplay : f ≠ .display) (hbefore : ∀ w ∈ before, IsPositional w) (after : List String) :
    runCommand env c (before ++ f.assign value :: after) =
      runCommand (env.set f value) c (before ++ after) := by
  have hbase : base.help = none := by
    rw [(setFlag_empty hset).1]
    simp [GivenFlags.only, hhelp]
  rw [runCommand, runCommand, read_assign hbelongs hset hbefore]
  cases read (some c) (before ++ after) with
  | error e => rfl
  | ok a =>
      have hsame : (a.orElse base).flags.help = a.flags.help := by
        simp [Arguments.orElse, GivenFlags.orElse, hbase]
      have hload : Configuration.load env (a.orElse base).flags =
          Configuration.load (env.set f value) a.flags :=
        (Configuration.agree_set env a.flags hset hvalue hdisplay).load_eq.symm
      dsimp only [Except.map]
      rw [hsame, hload]
      rfl

theorem run_of_firstWord (env : Environment) {words : List String}
    (h : firstWord words = some c.name) : run env words = runCommand env c (words.erase c.name) := by
  have hname : ofName? c.name = some c := by
    cases c with
    | evaluate e => cases e <;> rfl
    | _ => rfl
  rw [run, h]
  dsimp only
  rw [hname]

theorem run_set_display (env : Environment) (value : String) (words : List String) :
    run (env.set .display value) words = run env words := by
  have hload (g : GivenFlags) :
      Configuration.load (env.set .display value) g = Configuration.load env g :=
    (Configuration.agree_set_display env g value).load_eq
  have hcommand (c : Command) (words : List String) :
      runCommand (env.set .display value) c words = runCommand env c words := by
    unfold runCommand
    cases read (some c) words with
    | error e => rfl
    | ok a =>
        dsimp only
        rw [hload]
  unfold run
  cases firstWord words with
  | none => rfl
  | some word =>
      dsimp only
      cases ofName? word with
      | none => rfl
      | some c => exact hcommand c _

/-- A flag and its variable are interchangeable, with every other word and variable as it is; only the
variable of `show` says nothing. -/
theorem assign_interchangeable_unless_display (env : Environment) {c : Command} {f : Flag}
    {value : String} {before after : List String} (hbefore : ∀ word ∈ before, IsPositional word)
    (hcommand : firstWord (before ++ after) = some c.name)
    (hbelongs : f.belongsTo (some c) = true) (hhelp : f ≠ .help) (hvalue : value ≠ "")
    (haccepted : ∃ g, setFlag f value {} = .ok g) :
    (f ≠ .display →
      run env (before ++ f.assign value :: after) = run (env.set f value) (before ++ after)) ∧
    (f = .display → run (env.set f value) (before ++ after) = run env (before ++ after)) := by
  refine ⟨fun hdisplay => ?_, ?_⟩
  · obtain ⟨base, hset⟩ := haccepted
    have hfirst : firstWord (before ++ f.assign value :: after) = some c.name := by
      rw [firstWord_assign f value hbefore, hcommand]
    obtain ⟨before', after', hbefore', hassign, hplain⟩ :=
      erase_assign c.name_isPositional f value hbefore after
    rw [run_of_firstWord env hfirst, run_of_firstWord _ hcommand, hassign, hplain]
    exact runCommand_assign env hbelongs hset hvalue hhelp hdisplay hbefore' after'
  · rintro rfl
    exact run_set_display env value (before ++ after)

/-- A size in base sixteen, between the command and another flag. -/
theorem assign_interchangeable_unless_display_size :
    firstWord ["selfcheck", "-o", "yaml"] = some selfcheck.name ∧
      (∃ g, setFlag .size "0x3" {} = .ok g) ∧
      run (fun _ => none) ["selfcheck", "--n=0x3", "-o", "yaml"] =
        run (Environment.set (fun _ => none) .size "0x3") ["selfcheck", "-o", "yaml"] := by
  have hfirst : firstWord ["selfcheck", "-o", "yaml"] = some selfcheck.name := by decide
  have haccepted : ∃ g, setFlag .size "0x3" {} = .ok g := ⟨_, rfl⟩
  have hrun := @assign_interchangeable_unless_display (fun _ => none) .selfcheck .size "0x3"
    ["selfcheck"] ["-o", "yaml"] (by decide) hfirst rfl (by decide) (by decide) haccepted
  exact ⟨hfirst, haccepted, hrun.1 (by decide)⟩

set_option maxRecDepth 100000 in
/-- A self-check shows its product if the flag says so, and does not if the variable says so. -/
theorem run_ignores_display_variable :
    (run (fun _ => none) ["selfcheck", "--n=1", "--show=true"]).output =
        "1\nmax residual: 0\n[1]\n" ∧
      (run (Environment.set (fun _ => none) .display "true") ["selfcheck", "--n=1"]).output =
        "1\nmax residual: 0\n" := by
  decide +kernel

end Command

end PivotedLU
