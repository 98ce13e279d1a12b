import PivotedLU.Command.Run
import PivotedLU.Proofs.Precedence.Requests
import PivotedLU.Proofs.Stored.Answers
import PivotedLU.Proofs.Stored.Filled

/-!
# Findings of a command

A command reads its literals and asks the library; what it finds is printed in one piece at the end.
The determinant of a literal is computed in the cells that were read, which does not change the answer.
-/

namespace PivotedLU

/-! ## Results that go together -/

namespace Result

variable {β γ β' γ' : Type} {r : Result β} {r' : Result γ} {rel : β → γ → Prop} {post : β → Prop}

/-- Both results are values that belong together, or errors with the same cause. -/
def Together (r : Result β) (r' : Result γ) (rel : β → γ → Prop) : Prop :=
  (∃ x y, r = .ok x ∧ r' = .ok y ∧ rel x y) ∨ ∃ cause, r.FailsWith cause ∧ r'.FailsWith cause

theorem Gives.ok_or_failsWith (h : r.Gives post) :
    (∃ x, r = .ok x ∧ post x) ∨ ∃ cause, r.FailsWith cause :=
  h.imp_right fun ⟨e, he⟩ => ⟨e.cause, e.path, he⟩

theorem Gives.together (h : r.Gives post) : r.Together r fun x y => x = y ∧ post x := by
  rcases h.ok_or_failsWith with ⟨x, hx, hpost⟩ | ⟨cause, hfails⟩
  · exact .inl ⟨x, x, hx, hx, rfl, hpost⟩
  · exact .inr ⟨cause, hfails, hfails⟩

theorem Says.together {r r' : Result β} {o : Except Nat β} (h : r.Says o) (h' : r'.Says o) :
    r.Together r' Eq := by
  cases o with
  | ok x => exact .inl ⟨x, x, h, h', rfl⟩
  | error column =>
      obtain ⟨path, h⟩ := h
      obtain ⟨path', h'⟩ := h'
      exact .inr ⟨.singular, ⟨_, h⟩, ⟨_, h'⟩⟩

theorem Together.bind {next : β → Result β'} {next' : γ → Result γ'} {rel' : β' → γ' → Prop}
    (h : r.Together r' rel) (hnext : ∀ x y, rel x y → (next x).Together (next' y) rel') :
    (r >>= next).Together (r' >>= next') rel' := by
  rcases h with ⟨x, y, rfl, rfl, hxy⟩ | ⟨cause, h, h'⟩
  · exact hnext x y hxy
  · exact .inr ⟨cause, h.bind next, h'.bind next'⟩

end Result

/-- The cause of an error of the domain. -/
def CommandError.cause? : CommandError → Option Cause
  | .failure (.error e) => some e.cause
  | _ => none

/-! ## Findings -/

/-- What a command finds out. -/
inductive Finding where
  | number (x : Float)
  | matrix (d : Dense Float)
  | vector (v : Array Float)

/-- The text of a finding: a number or a list on a line, a matrix row by row. -/
def Finding.IsText : Finding → String → Prop
  | .number x, text => text = Decimal.Layout.general.render x ++ "\n"
  | .matrix d, text => d.text = .ok text
  | .vector v, text => text = vectorText v ++ "\n"

/-- What the library says about a matrix. -/
def Evaluation.find (e : Evaluation) (d : Dense Float) : Result Finding :=
  match e with
  | .determinant => do return .number (← PivotedLU.determinant 0 (some (.dense d)))
  | .inverse => do return .matrix (← PivotedLU.inverse 0 (some (.dense d)))
  | .trace => do return .number (← PivotedLU.trace (some (.dense d)))
  | .transpose => do return .matrix (← PivotedLU.transpose (some (.dense d)))

/-- The report prints as the finding. -/
def Finding.IsReported (f : Finding) (r : Report) : Prop :=
  ∃ text, r.text = .ok text ∧ f.IsText text

namespace Finding

theorem number_isReported (command : String) (n : Int) (x : Float) :
    (number x).IsReported { command, n, value := some x } := by
  refine ⟨_, ?_, rfl⟩
  simp [Report.text, Report.numbers]

theorem vector_isReported (command : String) (n : Int) (v : Array Float) :
    (vector v).IsReported { command, n, vector := some v } := by
  refine ⟨_, ?_, rfl⟩
  simp [Report.text, Report.numbers]

theorem matrix_isReported (command : String) (n : Int) {d : Dense Float} (hd : d.Filled) :
    (matrix d).IsReported { command, n, matrix := some d } := by
  obtain ⟨text, htext⟩ := hd.text_ok
  refine ⟨text, ?_, htext⟩
  simp only [Report.text, htext]
  simp [Result.ofFaulty, Report.numbers, bind, Except.bind, pure, Except.pure]

end Finding

namespace Command

variable {d : Dense Float}

theorem consumeDeterminant_mismatch (tol : Float) (h : d.shape.rows ≠ d.shape.cols) :
    (consumeDeterminant tol d).FailsWith .dimensionMismatch := by
  have hcheck : (Check.isSquare (some (Store.empty.keep d).1)).FailsWith .dimensionMismatch :=
    Check.isSquare_mismatch h
  obtain ⟨path, hpath⟩ := hcheck.within (.routine .factorize)
  refine ⟨.routine .determinant :: path, ?_⟩
  have he : Result.of .factorize (Check.isSquare (some (Store.empty.keep d).1)) = _ := hpath
  simp only [consumeDeterminant, StoredMatrix.determinantInPlace, StoredMatrix.factorizeInPlace, he]
  rfl

/-- Nothing is lost by factoring a matrix in its own cells. -/
theorem consumeDeterminant_together (hd : d.Filled) :
    (determinant 0 (some (.dense d))).Together (consumeDeterminant 0 d) Eq := by
  have htol : Scalar.atMost (0 : Float) 0 = true := by decide +kernel
  by_cases hsquare : d.shape.rows = d.shape.cols
  · have hcols : d.cols = d.rows := hd.cols_eq_rows hsquare
    have hshows : d.Shows (Matrix.of fun i j : Fin d.rows => cellAt d.data (i * d.rows + j)) :=
      ⟨hcols ▸ hd.fits, rfl, hcols, .of_cellAt (by rw [hd.size, hcols]) fun _ _ => rfl⟩
    have hkept : ((Store.empty.keep d).1.view (Store.empty.keep d).2).Shows _ := hshows
    obtain ⟨o, ho, hf⟩ := exists_answered hshows.operand htol fun _ => 0
    exact (ho.determinant hf).together (ho.determinantInPlace htol hkept)
  · have hfactorize : (factorize 0 (some (.dense d))).FailsWith .dimensionMismatch :=
      ((Check.isSquare_mismatch hsquare).bind _).within _
    exact .inr ⟨_, (hfactorize.within _).bind _, consumeDeterminant_mismatch 0 hsquare⟩

/-- The report of a command is about what the library says. -/
theorem report_together (hd : d.Filled) (e : Evaluation) :
    (e.find d).Together (report 0 e d) Finding.IsReported := by
  have hm : ∀ m ∈ some (Operand.dense d), m.Filled := by
    rintro _ ⟨⟩
    exact hd
  cases e with
  | determinant =>
      refine (consumeDeterminant_together hd).bind ?_
      rintro x _ rfl
      exact .inl ⟨_, _, rfl, rfl, Finding.number_isReported _ _ x⟩
  | inverse =>
      refine (inverse_gives 0 hm).together.bind ?_
      rintro x _ ⟨rfl, hx⟩
      exact .inl ⟨_, _, rfl, rfl, Finding.matrix_isReported _ _ hx⟩
  | trace =>
      refine (trace_gives hm).together.bind ?_
      rintro x _ ⟨rfl, -⟩
      exact .inl ⟨_, _, rfl, rfl, Finding.number_isReported _ _ x⟩
  | transpose =>
      refine (transpose_gives hm).together.bind ?_
      rintro x _ ⟨rfl, hx⟩
      exact .inl ⟨_, _, rfl, rfl, Finding.matrix_isReported _ _ hx⟩

/-! ## Computations that print at the end -/

section

variable {β γ : Type} {x : Execution β} {k : β → Execution γ} {b : β} {r : Except CommandError γ}
  {printed : String} {cause : Option Cause}

theorem run_bind (x : Execution β) (k : β → Execution γ) (t : Transcript) :
    (x >>= k).run.run t = match x.run.run t with
      | (.ok b, u) => (k b).run.run u
      | (.error e, u) => (.error e, u) := by
  show (ExceptT.bindCont k (x.run.run t).1).run (x.run.run t).2 = _
  rcases x.run.run t with ⟨_ | _, _⟩ <;> rfl

/-- The computation, begun before anything is printed, ends with this result and this output. -/
def Ends (x : Execution β) (r : Except CommandError β) (printed : String) : Prop :=
  ∀ entries, ∃ entries', x.run.run ⟨entries, ""⟩ = (r, ⟨entries', printed⟩)

/-- The computation fails before anything is printed. -/
def Stops (x : Execution β) (cause : Option Cause) : Prop :=
  ∃ e, Ends x (.error e) "" ∧ e.cause? = cause

theorem ends_pure (b : β) : Ends (pure b) (.ok b) "" :=
  fun entries => ⟨entries, rfl⟩

theorem ends_note {command : Command} {level : Log.Level} {message : String}
    {fields : List (String × Log.Value)} : Ends (note command level message fields) (.ok ()) "" :=
  fun _ => ⟨_, rfl⟩

theorem stops_throw (e : CommandError) : Stops (throw e : Execution β) e.cause? :=
  ⟨e, fun entries => ⟨entries, rfl⟩, rfl⟩

theorem stops_demand {r : Result β} {c : Cause} (h : r.FailsWith c) : Stops (demand r) (some c) := by
  obtain ⟨path, rfl⟩ := h
  exact stops_throw (.failure (.error ⟨path, c⟩))

theorem Ends.bind (hx : Ends x (.ok b) "") (hk : Ends (k b) r printed) : Ends (x >>= k) r printed := by
  intro entries
  obtain ⟨entries', hx⟩ := hx entries
  obtain ⟨entries'', hk⟩ := hk entries'
  refine ⟨entries'', ?_⟩
  rw [run_bind, hx]
  exact hk

theorem Ends.stops (hx : Ends x (.ok b) "") (hk : Stops (k b) cause) : Stops (x >>= k) cause := by
  obtain ⟨e, hk, he⟩ := hk
  exact ⟨e, hx.bind hk, he⟩

theorem Stops.bind (hx : Stops x cause) (k : β → Execution γ) : Stops (x >>= k) cause := by
  obtain ⟨e, hx, he⟩ := hx
  refine ⟨e, fun entries => ?_, he⟩
  obtain ⟨entries', hx⟩ := hx entries
  refine ⟨entries', ?_⟩
  rw [run_bind, hx]

end

/-! ## Commands -/

section

variable {config : Configuration} {command : Command} {literal left right : String}
  {rhs : Dense Float} {e : Evaluation} {report : Report} {text : String} {c : Cause}

theorem ends_emit (houtput : config.output = .text) (h : report.text = .ok text) :
    Ends (emit config report) (.ok ()) text := by
  intro entries
  refine ⟨entries, ?_⟩
  have hrender : report.render config.output config.precision = .ok text := by
    rw [houtput]
    exact h
  rw [emit, hrender]
  show (Except.ok (), Transcript.mk entries ("" ++ text)) = _
  rw [String.empty_append]

theorem ends_readLiteral (command : Command) (h : parseRows literal true = .ok d) :
    Ends (readLiteral command literal) (.ok d) "" := by
  rw [readLiteral, h]
  exact (ends_pure d).bind (ends_note.bind (ends_pure d))

theorem stops_readLiteral (command : Command) (h : (parseRows literal true).FailsWith c) :
    Stops (readLiteral command literal) (some c) :=
  (stops_demand (h.within _)).bind _

theorem ends_executeEvaluation (houtput : config.output = .text) (htol : config.pivotTolerance = 0)
    (hd : parseRows literal true = .ok d) (hreport : Command.report 0 e d = .ok report)
    (htext : report.text = .ok text) : Ends (executeEvaluation config e literal) (.ok ()) text := by
  refine (ends_readLiteral _ hd).bind ?_
  rw [htol, hreport]
  exact ends_note.bind (ends_emit houtput htext)

theorem stops_executeEvaluation (htol : config.pivotTolerance = 0)
    (hd : parseRows literal true = .ok d) (h : (Command.report 0 e d).FailsWith c) :
    Stops (executeEvaluation config e literal) (some c) := by
  obtain ⟨path, h⟩ := h
  refine (ends_readLiteral _ hd).stops ?_
  rw [htol, h]
  exact ends_note.stops (stops_throw (.failure (.error ⟨path, c⟩)))

/-! ## Systems of equations -/

variable (hd : parseRows left true = .ok d) (hrhs : parseRows right true = .ok rhs)

include hd hrhs

theorem stops_executeSolve_shape (h : ¬ (rhs.rows = 1 ∨ rhs.cols = 1)) :
    Stops (executeSolve config left right) none := by
  refine (ends_readLiteral _ hd).stops ((ends_readLiteral _ hrhs).stops ?_)
  dsimp only
  rw [if_pos (not_or.mp h)]
  exact (stops_throw (.rightHandSide rhs.shape)).bind _

variable {f : Factors Float} (htol : config.pivotTolerance = 0) (hvector : rhs.rows = 1 ∨ rhs.cols = 1)

include htol hvector

theorem stops_executeSolve_factorize (h : (factorize 0 (some (.dense d))).FailsWith c) :
    Stops (executeSolve config left right) (some c) := by
  refine (ends_readLiteral _ hd).stops ((ends_readLiteral _ hrhs).stops ?_)
  dsimp only
  rw [if_neg (not_and_or.mpr (hvector.imp not_not.mpr not_not.mpr)), htol]
  exact (stops_demand h).bind _

variable (hf : factorize 0 (some (.dense d)) = .ok f)

include hf

theorem stops_executeSolve_solve (h : (f.solve (some rhs.data)).FailsWith c) :
    Stops (executeSolve config left right) (some c) := by
  refine (ends_readLiteral _ hd).stops ((ends_readLiteral _ hrhs).stops ?_)
  dsimp only
  rw [if_neg (not_and_or.mpr (hvector.imp not_not.mpr not_not.mpr)), htol, hf]
  exact (ends_pure f).stops ((stops_demand h).bind _)

theorem ends_executeSolve {x : Array Float} (houtput : config.output = .text) (hfilled : f.Filled)
    (hx : f.solve (some rhs.data) = .ok x) :
    ∃ text, (Finding.vector x).IsText text ∧ Ends (executeSolve config left right) (.ok ()) text := by
  obtain ⟨text, htext, his⟩ := Finding.vector_isReported Command.solve.name f.n x
  obtain ⟨π, k, hrecords⟩ := hfilled.exists_records
  refine ⟨text, his, (ends_readLiteral _ hd).bind ((ends_readLiteral _ hrhs).bind ?_)⟩
  dsimp only
  rw [if_neg (not_and_or.mpr (hvector.imp not_not.mpr not_not.mpr)), htol, hf]
  refine (ends_pure f).bind ?_
  rw [hx, hrecords.swaps]
  exact (ends_pure x).bind ((ends_pure _).bind (ends_note.bind (ends_emit houtput htext)))

end

end Command

end PivotedLU
