import PivotedLU.Proofs.Command.Environment
import PivotedLU.Proofs.Command.Execution

/-!
# Questions on a command line

A command that is given its literals and no flags prints what the library finds, or it prints nothing
and fails with the cause of the first step that fails.
-/

namespace PivotedLU

/-! ## Solving in two steps -/

section

variable {tol : Float} {d : Dense Float} {b x : Array Float} {f : Factors Float}

theorem length_of_factors_solve (h : f.solve (some b) = .ok x) :
    (b.size : Int) = (Int64.ofNat f.n).toInt := by
  by_contra hlength
  exact (((Check.hasLength_mismatch hlength).within _).bind _).ne_ok x h

theorem isSquare_of_factorize (h : factorize tol (some (.dense d)) = .ok f) :
    d.shape.rows = d.shape.cols := by
  by_contra hsquare
  exact (((Check.isSquare_mismatch hsquare).bind _).within _).ne_ok f h

/-- A system is solved exactly if its matrix can be factored and the factors solve it. -/
theorem solve_eq_ok_iff : solve tol (some (.dense d)) (some b) = .ok x ↔
    ∃ f, factorize tol (some (.dense d)) = .ok f ∧ f.solve (some b) = .ok x := by
  constructor
  · intro h
    obtain ⟨hsquare, hlength⟩ := not_or.mp fun hne => (solve_mismatched hne).ne_ok x h
    rw [solve_eq (not_not.mp hsquare) (not_not.mp hlength)] at h
    cases hf : factorize tol (some (.dense d)) with
    | error failure =>
        rw [hf] at h
        cases h
    | ok f =>
        rw [hf] at h
        exact ⟨f, rfl, h⟩
  · rintro ⟨f, hf, hx⟩
    have hsquare : (Operand.dense d).shape.rows = (Operand.dense d).shape.cols :=
      isSquare_of_factorize hf
    have hlength : (b.size : Int) = (Operand.dense d).shape.rows.toInt := by
      rw [length_of_factors_solve hx, n_of_factorize hsquare hf]
      rfl
    rw [solve_eq hsquare hlength, hf]
    exact hx

end

/-! ## Settings without flags and variables -/

/-- The configuration when nothing is set. -/
def Configuration.standard : Configuration where
  level := .info
  format := .console
  output := .text
  precision := 15
  pivotTolerance := 0
  size := 200
  seed := 1
  maxResidual := 1e-8
  display := false

theorem Configuration.load_standard {env : Environment} (henv : ∀ f : Flag, env f.environmentName = none) :
    load env {} = .ok standard := by
  have hunset {β : Type} (read : String → β) {given : Flag → Option β} (hgiven : ∀ f, given f = none)
      (k : Key) (default : β) : lookUp read env given k default = default := by
    rw [lookUp, inherited, k.flag?_eq, Option.bind_some, hgiven, k.variableOf_name, henv]
    rfl
  have htext (k : Key) (default : String) : textOf env {} k default = default :=
    hunset id (fun f => by cases f <;> rfl) k default
  have hinteger (k : Key) (default : Int64) : integerOf env {} k default = default :=
    hunset _ (fun f => by cases f <;> rfl) k default
  have hfloat (k : Key) (default : Float) : floatOf env {} k default = default :=
    hunset _ (fun f => by cases f <;> rfl) k default
  have houtput : Output.ofText? (Text.lower "text") = some .text := by decide
  have htolerance : Setting.isTolerance 0 = true := by decide +kernel
  have hlevel : Log.Level.ofText? "info" = some .info := by decide
  have hformat : Log.Format.ofText? "console" = some .console := by decide
  unfold load
  rw [htext, hfloat, htext, htext, hinteger, hinteger, hinteger, hfloat]
  dsimp only
  rw [houtput, htolerance, hlevel, hformat]
  rfl

namespace Command

open Arguments

variable {env : Environment} {c : Command} {i : Invocation} {words : List String}

theorem read_positional (hwords : ∀ word ∈ words, IsPositional word) :
    read (some c) words = .ok { words } := by
  have h := readAll_positional (c := some c) hwords [] {}
  rw [List.append_nil] at h
  exact h

theorem run_positional (henv : ∀ f : Flag, env f.environmentName = none)
    (hwords : ∀ word ∈ words, IsPositional word) (hmake : Invocation.make c words = .ok i) :
    run env (c.name :: words) = start .standard i := by
  have hname : c.name ≠ "" := by
    cases c with
    | evaluate e => cases e <;> decide
    | _ => decide
  have hfirst : firstWord (c.name :: words) = some c.name := by
    rw [firstWord_positional c.name_isPositional, if_neg hname]
  rw [run_of_firstWord env hfirst, List.erase_cons_head, runCommand, read_positional hwords]
  dsimp only
  rw [if_neg (by simp), hmake]
  dsimp only
  rw [Configuration.load_standard henv]

/-! ## Outcomes -/

theorem start_of_ends {config : Configuration} {text : String}
    (h : Ends (i.execute config) (.ok ()) text) :
    (start config i).status = 0 ∧ (start config i).output = text := by
  obtain ⟨entries, h⟩ := h []
  unfold start
  rw [h]
  exact ⟨rfl, rfl⟩

theorem start_of_stops {config : Configuration} {cause : Option Cause}
    (h : Stops (i.execute config) cause) :
    (start config i).status = 1 ∧ (start config i).output = "" ∧
      ∃ e, (start config i).error = some e ∧ e.cause? = cause := by
  obtain ⟨e, h, he⟩ := h
  obtain ⟨entries, h⟩ := h []
  unfold start
  rw [h]
  exact ⟨rfl, rfl, e, rfl, he⟩

/-! ## Questions -/

/-- What can be asked about matrices that are given as literals. -/
inductive Question where
  | evaluate (e : Evaluation) (literal : String)
  | solve (left right : String)

namespace Question

def command : Question → Command
  | evaluate e _ => .evaluate e
  | solve _ _ => .solve

def literals : Question → List String
  | evaluate _ literal => [literal]
  | solve left right => [left, right]

def invocation : Question → Invocation
  | evaluate e literal => .evaluate e literal
  | solve left right => .solve left right

/-- What the library finds, once the literals are read. -/
inductive Finds : Question → Finding → Prop
  | evaluate {e : Evaluation} {literal : String} {d : Dense Float} {f : Finding} :
      parseRows literal true = .ok d → e.find d = .ok f → Finds (.evaluate e literal) f
  | solve {left right : String} {d rhs : Dense Float} {x : Array Float} :
      parseRows left true = .ok d → parseRows right true = .ok rhs → rhs.rows = 1 ∨ rhs.cols = 1 →
      PivotedLU.solve 0 (some (.dense d)) (some rhs.data) = .ok x →
      Finds (.solve left right) (.vector x)

/-- The cause of the first step that fails. That a right-hand side is no vector has no cause. -/
inductive StopsAt : Question → Option Cause → Prop
  | literal {e : Evaluation} {literal : String} {c : Cause} :
      (parseRows literal true).FailsWith c → StopsAt (.evaluate e literal) (some c)
  | evaluate {e : Evaluation} {literal : String} {d : Dense Float} {c : Cause} :
      parseRows literal true = .ok d → (e.find d).FailsWith c → StopsAt (.evaluate e literal) (some c)
  | left {left right : String} {c : Cause} :
      (parseRows left true).FailsWith c → StopsAt (.solve left right) (some c)
  | right {left right : String} {d : Dense Float} {c : Cause} :
      parseRows left true = .ok d → (parseRows right true).FailsWith c →
      StopsAt (.solve left right) (some c)
  | shape {left right : String} {d rhs : Dense Float} :
      parseRows left true = .ok d → parseRows right true = .ok rhs →
      ¬ (rhs.rows = 1 ∨ rhs.cols = 1) → StopsAt (.solve left right) none
  | factorize {left right : String} {d rhs : Dense Float} {c : Cause} :
      parseRows left true = .ok d → parseRows right true = .ok rhs → rhs.rows = 1 ∨ rhs.cols = 1 →
      (PivotedLU.factorize 0 (some (.dense d))).FailsWith c → StopsAt (.solve left right) (some c)
  | solve {left right : String} {d rhs : Dense Float} {f : Factors Float} {c : Cause} :
      parseRows left true = .ok d → parseRows right true = .ok rhs → rhs.rows = 1 ∨ rhs.cols = 1 →
      PivotedLU.factorize 0 (some (.dense d)) = .ok f → (f.solve (some rhs.data)).FailsWith c →
      StopsAt (.solve left right) (some c)

variable {q : Question} {f : Finding}

theorem filled_of_parseRows {literal : String} {d : Dense Float} (h : parseRows literal true = .ok d) :
    ∀ m ∈ some (Operand.dense d), m.Filled := by
  rintro _ ⟨⟩
  exact (parseRows_gives literal true).of_ok h

theorem Finds.ends (h : q.Finds f) :
    ∃ text, f.IsText text ∧ Ends (q.invocation.execute .standard) (.ok ()) text := by
  cases h with
  | @evaluate e literal d f hd hf =>
      rcases report_together ((parseRows_gives literal true).of_ok hd) e with
        ⟨f', report, hf', hreport, text, htext, his⟩ | ⟨c, hfails, -⟩
      · cases hf.symm.trans hf'
        exact ⟨text, his, ends_executeEvaluation rfl rfl hd hreport htext⟩
      · exact absurd hf (hfails.ne_ok f)
  | @solve left right d rhs x hd hrhs hvector hx =>
      obtain ⟨f, hf, hx⟩ := solve_eq_ok_iff.mp hx
      have hfilled : f.Filled := (factorize_gives 0 (filled_of_parseRows hd)).of_ok hf
      exact ends_executeSolve hd hrhs rfl hvector hf rfl hfilled hx

theorem exists_stops_evaluate {e : Evaluation} {literal : String}
    (h : ¬ ∃ f, (evaluate e literal).Finds f) : ∃ cause, (evaluate e literal).StopsAt cause ∧
      Stops (executeEvaluation .standard e literal) cause := by
  rcases (parseRows_gives literal true).ok_or_failsWith with ⟨d, hd, hfilled⟩ | ⟨c, hd⟩
  · rcases report_together hfilled e with ⟨f, _, hf, -⟩ | ⟨c, hf, hreport⟩
    · exact absurd ⟨f, .evaluate hd hf⟩ h
    · exact ⟨some c, .evaluate hd hf, stops_executeEvaluation rfl hd hreport⟩
  · exact ⟨some c, .literal hd, (stops_readLiteral _ hd).bind _⟩

theorem exists_stops_solve {left right : String} (h : ¬ ∃ f, (solve left right).Finds f) :
    ∃ cause, (solve left right).StopsAt cause ∧ Stops (executeSolve .standard left right) cause := by
  -- One step after the other: where it fails the run stops, else the next one is tried.
  rcases (parseRows_gives left true).ok_or_failsWith with ⟨d, hd, -⟩ | ⟨c, hd⟩
  on_goal 2 => exact ⟨some c, .left hd, (stops_readLiteral _ hd).bind _⟩
  rcases (parseRows_gives right true).ok_or_failsWith with ⟨rhs, hrhs, -⟩ | ⟨c, hrhs⟩
  on_goal 2 =>
    exact ⟨some c, .right hd hrhs, (ends_readLiteral _ hd).stops ((stops_readLiteral _ hrhs).bind _)⟩
  by_cases hvector : rhs.rows = 1 ∨ rhs.cols = 1
  on_goal 2 => exact ⟨none, .shape hd hrhs hvector, stops_executeSolve_shape hd hrhs hvector⟩
  rcases (factorize_gives 0 (filled_of_parseRows hd)).ok_or_failsWith with ⟨f, hf, hfilled⟩ | ⟨c, hf⟩
  on_goal 2 =>
    exact ⟨some c, .factorize hd hrhs hvector hf, stops_executeSolve_factorize hd hrhs rfl hvector hf⟩
  rcases (hfilled.solve_gives (some rhs.data)).ok_or_failsWith with ⟨x, hx, -⟩ | ⟨c, hx⟩
  · exact absurd ⟨_, .solve hd hrhs hvector (solve_eq_ok_iff.mpr ⟨f, hf, hx⟩)⟩ h
  · exact ⟨some c, .solve hd hrhs hvector hf hx, stops_executeSolve_solve hd hrhs rfl hvector hf hx⟩

theorem exists_stops (h : ¬ ∃ f, q.Finds f) :
    ∃ cause, q.StopsAt cause ∧ Stops (q.invocation.execute .standard) cause := by
  cases q with
  | evaluate e literal => exact exists_stops_evaluate h
  | solve left right => exact exists_stops_solve h

end Question

/-- The run prints what is found, or nothing, and then it names the first step that fails. -/
structure Outcome.Answers (o : Outcome) (q : Question) : Prop where
  succeeds : o.status = 0 ↔ ∃ f, q.Finds f
  prints : ∀ f, q.Finds f → f.IsText o.output
  fails : (¬ ∃ f, q.Finds f) → o.status = 1 ∧ o.output = "" ∧
    ∃ e, o.error = some e ∧ q.StopsAt e.cause?

/-- Without flags and variables, a command whose literals do not look like flags answers. -/
theorem run_answers_question (henv : ∀ f : Flag, env f.environmentName = none) (q : Question)
    (hq : ∀ literal ∈ q.literals, IsPositional literal) :
    (run env (q.command.name :: q.literals)).Answers q := by
  have hmake : Invocation.make q.command q.literals = .ok q.invocation := by
    cases q <;> rfl
  rw [run_positional henv hq hmake]
  by_cases h : ∃ f, q.Finds f
  · obtain ⟨f, hf⟩ := h
    obtain ⟨text, -, hends⟩ := hf.ends
    obtain ⟨hstatus, -⟩ := start_of_ends hends
    refine ⟨iff_of_true hstatus ⟨f, hf⟩, fun f' hf' => ?_, fun hne => absurd ⟨f, hf⟩ hne⟩
    obtain ⟨text', his, hends'⟩ := hf'.ends
    rw [(start_of_ends hends').2]
    exact his
  · obtain ⟨cause, hstops, hrun⟩ := Question.exists_stops h
    obtain ⟨hstatus, houtput, e, he, rfl⟩ := start_of_stops hrun
    refine ⟨iff_of_false ?_ h, fun f hf => absurd ⟨f, hf⟩ h, fun _ => ⟨hstatus, houtput, e, he, hstops⟩⟩
    rw [hstatus]
    decide

/-- A determinant for which rows are exchanged. -/
theorem run_answers_question_exchanged :
    IsPositional "4 3; 6 3" ∧
      (run (fun _ => none) ["det", "4 3; 6 3"]).Answers (.evaluate .determinant "4 3; 6 3") ∧
      (run (fun _ => none) ["det", "4 3; 6 3"]).output = "-6\n" := by
  have hpositional : IsPositional "4 3; 6 3" := by decide
  have hanswers := @run_answers_question (fun _ => none) (fun _ => rfl)
    (.evaluate .determinant "4 3; 6 3") (by simpa [Question.literals] using hpositional)
  exact ⟨hpositional, hanswers, by decide +kernel⟩

end Command

end PivotedLU
