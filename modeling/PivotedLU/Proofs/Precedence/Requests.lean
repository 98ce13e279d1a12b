import PivotedLU.Proofs.Precedence.Products

/-!
# The order of errors of all requests
-/

namespace PivotedLU

variable {α : Type} [Scalar α]

/-! ## Systems of equations -/

section

variable {m : Option (Operand α)} {b : Option (Array α)} {x : Operand α} {v : Array α} {tol : α}
  {c : Cause}

theorem factorize_eq (hsquare : x.shape.rows = x.shape.cols) : factorize tol (some x) =
    Result.of .factorize (x.flatten >>= fun block => Factors.ofBlock tol x.rowCount block) := by
  rw [factorize, Check.isSquare_ok hsquare]
  rfl

theorem factorize_misshapen (hsquare : x.shape.rows = x.shape.cols) (h : x.Misshapen) :
    (factorize tol (some x)).FailsWith .invalidDimensions := by
  rw [factorize_eq hsquare]
  exact ((Operand.flatten_of_misshapen h).bind _).within _

theorem factorize_errsOnly (hsquare : x.shape.rows = x.shape.cols) (h : ¬ x.Misshapen) :
    (factorize tol (some x)).ErrsOnly fun c => c = .singular ∨ x.Refuses c := by
  rw [factorize_eq hsquare]
  refine Result.ErrsOnly.within _ ?_
  refine ((Operand.flatten_errsOnly h).mono fun _ => Or.inr).bind fun block _ => ?_
  exact (Factors.ofBlock_errsOnly _ _ block).mono fun _ => Or.inl

theorem n_of_factorize {f : Factors α} (hsquare : x.shape.rows = x.shape.cols)
    (h : factorize tol (some x) = .ok f) : f.n = x.rowCount := by
  rw [factorize_eq hsquare] at h
  cases hblock : x.flatten with
  | error failure =>
      rw [hblock] at h
      cases h
  | ok block =>
      rw [hblock] at h
      rcases Factors.ofBlock_cases tol x.rowCount block with ⟨g, hg, hn⟩ | ⟨path, hg⟩ | ⟨fault, hg⟩
      · dsimp only [bind, Except.bind] at h
        rw [hg] at h
        cases h
        exact hn
      · dsimp only [bind, Except.bind] at h
        rw [hg] at h
        cases h
      · dsimp only [bind, Except.bind] at h
        rw [hg] at h
        cases h

theorem solve_overtaken (h : (Request.solve tol m b).Overtaken c) : (solve tol m b).FailsWith c := by
  obtain ⟨rfl, rfl, x, rfl, hsquare⟩ := h
  exact ((Check.isSquare_mismatch hsquare).within _).bind _

theorem solve_absent (h : m = none ∨ b = none) (hfirst : ∀ c, ¬ (Request.solve tol m b).Overtaken c) :
    (solve tol m b).FailsWith .absent := by
  cases m with
  | none => exact ⟨_, rfl⟩
  | some x =>
      obtain rfl : b = none := h.resolve_left (Option.some_ne_none x)
      have hsquare : x.shape.rows = x.shape.cols := by
        by_contra hne
        exact hfirst _ ⟨rfl, rfl, x, rfl, hne⟩
      rw [solve, Check.isSquare_ok hsquare]
      exact ⟨_, rfl⟩

theorem solve_mismatched (h : x.shape.rows ≠ x.shape.cols ∨ (v.size : Int) ≠ x.shape.rows.toInt) :
    (solve tol (some x) (some v)).FailsWith .dimensionMismatch := by
  by_cases hsquare : x.shape.rows = x.shape.cols
  · rw [solve, Check.isSquare_ok hsquare]
    exact ((Check.hasLength_mismatch (h.resolve_left (not_not.mpr hsquare))).within _).bind _
  · exact ((Check.isSquare_mismatch hsquare).within _).bind _

/-- What follows the checks of the dimensions. -/
theorem solve_eq (hsquare : x.shape.rows = x.shape.cols) (hlength : (v.size : Int) = x.shape.rows.toInt) :
    solve tol (some x) (some v) =
      Result.of .solve (factorize tol (some x)) >>= fun f => f.solve (some v) := by
  rw [solve, Check.isSquare_ok hsquare]
  show Result.of .solve (Check.hasLength (some v.size) x.shape.rows) >>= _ = _
  rw [Check.hasLength_ok hlength]
  rfl

theorem solve_errsOnly (hsquare : x.shape.rows = x.shape.cols)
    (hlength : (v.size : Int) = x.shape.rows.toInt) (h : ¬ x.Misshapen) :
    (solve tol (some x) (some v)).ErrsOnly fun c => c = .singular ∨ x.Refuses c := by
  rw [solve_eq hsquare hlength]
  refine ((factorize_errsOnly hsquare h).within _).bind fun f hf => ?_
  have hn : f.n = x.rowCount := by
    cases hfactors : factorize tol (some x) with
    | error failure =>
        rw [hfactors] at hf
        cases hf
    | ok g =>
        rw [hfactors] at hf
        cases hf
        exact n_of_factorize hsquare hfactors
  have hrows : (v.size : Int) = (Int64.ofNat f.n).toInt := by
    rw [hn, ← Operand.shape_rows h]
    exact hlength
  rw [Factors.solve]
  show Result.ErrsOnly (Result.of .solve (Check.hasLength (some v.size) _) >>= _) _
  rw [Check.hasLength_ok hrows]
  exact Result.errsOnly_ofFaulty _ _

theorem solve_ranked (s : Store α) (h : ∀ c, ¬ (Request.solve tol m b).Overtaken c) :
    (solve tol m b).Ranked ((Request.solve tol m b).defects s) where
  absent habsent := solve_absent habsent h
  mismatched _ hmismatched := by
    obtain ⟨x, rfl, v, rfl, hshapes⟩ := hmismatched
    exact solve_mismatched hshapes
  misshapen habsent hmatched hmisshapen := by
    obtain ⟨x, rfl, hshape⟩ := hmisshapen
    obtain ⟨v, rfl⟩ := Option.ne_none_iff_exists'.mp (not_or.mp habsent).2
    obtain ⟨hsquare, hlength⟩ : x.shape.rows = x.shape.cols ∧ (v.size : Int) = x.shape.rows.toInt := by
      simpa [Request.defects] using hmatched
    rw [solve_eq hsquare hlength]
    exact ((factorize_misshapen hsquare hshape).within _).bind _
  aliased _ _ _ haliased := haliased.elim
  computed habsent hmatched hshaped _ := by
    obtain ⟨x, rfl⟩ := Option.ne_none_iff_exists'.mp (not_or.mp habsent).1
    obtain ⟨v, rfl⟩ := Option.ne_none_iff_exists'.mp (not_or.mp habsent).2
    obtain ⟨hsquare, hlength⟩ : x.shape.rows = x.shape.cols ∧ (v.size : Int) = x.shape.rows.toInt := by
      simpa [Request.defects] using hmatched
    refine (solve_errsOnly hsquare hlength (by simpa [Request.defects] using hshaped)).mono fun c hc => ?_
    simpa [Request.defects] using hc

end

section

variable {f : StoredFactors} {x b : Option Window} {u v : Window} {c : Cause} {s : Store α}

theorem StoredFactors.solveInto_failsWith (h : (f.checkSolveInto x b).FailsWith c) :
    (f.solveInto x b s).1.FailsWith c := by
  obtain ⟨path, h⟩ := h
  rw [solveInto, h]
  exact ⟨path, rfl⟩

theorem solveInto_overtaken (h : (Request.solveInto f x b : Request α).Overtaken c) :
    (f.solveInto x b s).1.FailsWith c := by
  obtain ⟨rfl, rfl, v, rfl, hlength⟩ := h
  exact StoredFactors.solveInto_failsWith (((Check.hasLength_mismatch hlength).bind _).within _)

theorem solveInto_absent (h : x = none ∨ b = none)
    (hfirst : ∀ c, ¬ (Request.solveInto f x b : Request α).Overtaken c) :
    (f.solveInto x b s).1.FailsWith .absent := by
  refine StoredFactors.solveInto_failsWith (Result.FailsWith.within _ ?_)
  cases b with
  | none => exact ⟨_, rfl⟩
  | some v =>
      obtain rfl : x = none := h.resolve_right (Option.some_ne_none v)
      have hlength : (v.length : Int) = (Int64.ofNat f.n).toInt := by
        by_contra hne
        exact hfirst _ ⟨rfl, rfl, v, rfl, hne⟩
      show Result.FailsWith (Check.hasLength (some v.length) _ >>= _) _
      rw [Check.hasLength_ok hlength]
      exact ⟨_, rfl⟩

theorem solveInto_mismatched (h : (v.length : Int) ≠ (Int64.ofNat f.n).toInt ∨
    (u.length : Int) ≠ (Int64.ofNat f.n).toInt) :
    (f.solveInto (some u) (some v) s).1.FailsWith .dimensionMismatch := by
  refine StoredFactors.solveInto_failsWith (Result.FailsWith.within _ ?_)
  by_cases hlength : (v.length : Int) = (Int64.ofNat f.n).toInt
  · show Result.FailsWith (Check.hasLength (some v.length) _ >>= _) _
    rw [Check.hasLength_ok hlength]
    exact (Check.hasLength_mismatch (h.resolve_left (not_not.mpr hlength))).bind _
  · exact (Check.hasLength_mismatch hlength).bind _

/-- What follows the checks of the lengths. -/
theorem checkSolveInto_eq (hv : (v.length : Int) = (Int64.ofNat f.n).toInt)
    (hu : (u.length : Int) = (Int64.ofNat f.n).toInt) :
    f.checkSolveInto (some u) (some v) = Result.of .solve (u.noAlias [v]) := by
  rw [StoredFactors.checkSolveInto, Option.map_some, Option.map_some, Check.hasLength_ok hv,
    Check.hasLength_ok hu]
  rfl

theorem solveInto_ranked (h : ∀ c, ¬ (Request.solveInto f x b : Request α).Overtaken c) :
    (f.solveInto x b s).1.Ranked ((Request.solveInto f x b).defects s) where
  absent habsent := solveInto_absent habsent h
  mismatched _ hmismatched := by
    obtain ⟨u, rfl, v, rfl, hlengths⟩ := hmismatched
    exact solveInto_mismatched hlengths
  misshapen _ _ hmisshapen := hmisshapen.elim
  aliased _ hmatched _ haliased := by
    obtain ⟨u, rfl, v, rfl, hshares⟩ := haliased
    obtain ⟨hv, hu⟩ : (v.length : Int) = (Int64.ofNat f.n).toInt ∧
        (u.length : Int) = (Int64.ofNat f.n).toInt := by
      simpa [Request.defects] using hmatched
    refine StoredFactors.solveInto_failsWith ?_
    rw [checkSolveInto_eq hv hu]
    exact (Window.noAlias_aliased (List.mem_singleton.mpr rfl) hshares).within _
  computed habsent hmatched _ hapart := by
    obtain ⟨u, rfl⟩ := Option.ne_none_iff_exists'.mp (not_or.mp habsent).1
    obtain ⟨v, rfl⟩ := Option.ne_none_iff_exists'.mp (not_or.mp habsent).2
    obtain ⟨hv, hu⟩ : (v.length : Int) = (Int64.ofNat f.n).toInt ∧
        (u.length : Int) = (Int64.ofNat f.n).toInt := by
      simpa [Request.defects] using hmatched
    have hapart : ¬ u.Shares v := by simpa [Request.defects] using hapart
    rw [StoredFactors.solveInto, checkSolveInto_eq hv hu, Window.noAlias_of_apart (by simpa using hapart)]
    exact Store.errsOnly_commit _ _ _

end

/-! ## Inverses -/

section

variable {f : StoredFactors} {a dst : Option StoredMatrix} {d x : StoredMatrix} {c : Cause}
  {s : Store α}

theorem StoredFactors.inverseInto_failsWith (h : (f.checkInverseInto dst s).FailsWith c) :
    (f.inverseInto dst s).1.FailsWith c := by
  obtain ⟨path, h⟩ := h
  rw [inverseInto, h]
  exact ⟨path, rfl⟩

omit [Scalar α] in
/-- What follows the checks of the dimensions. -/
theorem checkInverseInto_eq (hsquare : d.shape.rows = d.shape.cols) (hrows : d.rows = f.n) :
    f.checkInverseInto (some d) s =
      Result.of .inverse ((d.window s).noAlias [Window.whole s f.block] >>= fun _ => .ok d) := by
  rw [StoredFactors.checkInverseInto, Check.isSquare_ok hsquare]
  show Result.of .inverse (if _ then _ else _) = _
  rw [if_neg (not_not.mpr hrows)]
  rfl

theorem inverseInto_mismatched (h : d.shape.rows ≠ d.shape.cols ∨ d.rows ≠ f.n) :
    (f.inverseInto (some d) s).1.FailsWith .dimensionMismatch := by
  refine StoredFactors.inverseInto_failsWith (Result.FailsWith.within _ ?_)
  by_cases hsquare : d.shape.rows = d.shape.cols
  · rw [Check.isSquare_ok hsquare]
    show Result.FailsWith (if _ then _ else _) _
    rw [if_pos (h.resolve_left (not_not.mpr hsquare))]
    exact Result.failsWith_fail _
  · exact (Check.isSquare_mismatch hsquare).bind _

theorem inverseInto_ranked (f : StoredFactors) (dst : Option StoredMatrix) (s : Store α) :
    (f.inverseInto dst s).1.Ranked ((Request.inverseInto f dst).defects s) where
  absent habsent := by
    obtain rfl : dst = none := habsent
    exact ⟨_, rfl⟩
  mismatched _ hmismatched := by
    obtain ⟨d, rfl, hshape⟩ := hmismatched
    exact inverseInto_mismatched hshape
  misshapen _ _ hmisshapen := hmisshapen.elim
  aliased _ hmatched _ haliased := by
    obtain ⟨d, rfl, hshares⟩ := haliased
    obtain ⟨hsquare, hrows⟩ : d.shape.rows = d.shape.cols ∧ d.rows = f.n := by
      simpa [Request.defects] using hmatched
    refine StoredFactors.inverseInto_failsWith ?_
    rw [checkInverseInto_eq hsquare hrows]
    exact ((Window.noAlias_aliased (List.mem_singleton.mpr rfl) hshares).bind _).within _
  computed habsent hmatched _ hapart := by
    obtain ⟨d, rfl⟩ := Option.ne_none_iff_exists'.mp habsent
    obtain ⟨hsquare, hrows⟩ : d.shape.rows = d.shape.cols ∧ d.rows = f.n := by
      simpa [Request.defects] using hmatched
    have hapart : ¬ (d.window s).Shares (Window.whole s f.block) := by
      simpa [Request.defects] using hapart
    rw [StoredFactors.inverseInto, checkInverseInto_eq hsquare hrows,
      Window.noAlias_of_apart (by simpa using hapart)]
    exact Store.errsOnly_commit _ _ _

theorem StoredMatrix.factorizeInPlace_errsOnly (tol : α) (hsquare : x.shape.rows = x.shape.cols) :
    (factorizeInPlace tol (some x) s).1.ErrsOnly (· = .singular) := by
  have helim := ((x.window s).eliminate_errsOnly tol x.rows s).within (.routine .factorize)
  rw [factorizeInPlace, Check.isSquare_ok hsquare]
  dsimp only [Result.of, Result.within]
  generalize (x.window s).eliminate tol x.rows s = o at helim ⊢
  obtain ⟨r, t⟩ := o
  cases r with
  | ok order => exact Result.errsOnly_ok _ _
  | error failure => exact helim.cast

omit [Scalar α] in
/-- What follows the checks of the dimensions. -/
theorem checkInverseInPlace_eq (hsquare : x.shape.rows = x.shape.cols) (hshape : x.shape = d.shape) :
    StoredMatrix.checkInverseInPlace (some x) (some d) s =
      Result.of .inverse ((d.window s).noAlias [x.window s] >>= fun _ => .ok (x, d)) := by
  rw [StoredMatrix.checkInverseInPlace, Check.isSquare_ok hsquare, Check.haveSameShape_eq hshape]
  rfl

variable {tol : α}

theorem StoredMatrix.inverseInPlace_failsWith (h : (checkInverseInPlace a dst s).FailsWith c) :
    (inverseInPlace tol a dst s).1.FailsWith c := by
  obtain ⟨path, h⟩ := h
  rw [inverseInPlace, h]
  exact ⟨path, rfl⟩

theorem inverseInPlace_overtaken (h : (Request.inverseInPlace tol a dst).Overtaken c) :
    (StoredMatrix.inverseInPlace tol a dst s).1.FailsWith c := by
  obtain ⟨rfl, rfl, x, rfl, hsquare⟩ := h
  exact StoredMatrix.inverseInPlace_failsWith (((Check.isSquare_mismatch hsquare).bind _).within _)

theorem inverseInPlace_absent (h : a = none ∨ dst = none)
    (hfirst : ∀ c, ¬ (Request.inverseInPlace tol a dst).Overtaken c) :
    (StoredMatrix.inverseInPlace tol a dst s).1.FailsWith .absent := by
  refine StoredMatrix.inverseInPlace_failsWith (Result.FailsWith.within _ ?_)
  cases a with
  | none => exact ⟨_, rfl⟩
  | some x =>
      obtain rfl : dst = none := h.resolve_left (Option.some_ne_none x)
      have hsquare : x.shape.rows = x.shape.cols := by
        by_contra hne
        exact hfirst _ ⟨rfl, rfl, x, rfl, hne⟩
      rw [Check.isSquare_ok hsquare]
      exact ⟨_, rfl⟩

theorem inverseInPlace_mismatched (h : x.shape.rows ≠ x.shape.cols ∨ x.shape ≠ d.shape) :
    (StoredMatrix.inverseInPlace tol (some x) (some d) s).1.FailsWith .dimensionMismatch := by
  refine StoredMatrix.inverseInPlace_failsWith (Result.FailsWith.within _ ?_)
  by_cases hsquare : x.shape.rows = x.shape.cols
  · rw [Check.isSquare_ok hsquare]
    exact (Check.haveSameShape_mismatch (h.resolve_left (not_not.mpr hsquare))).bind _
  · exact (Check.isSquare_mismatch hsquare).bind _

theorem inverseInPlace_errsOnly (hsquare : x.shape.rows = x.shape.cols) (hshape : x.shape = d.shape)
    (hapart : ¬ (d.window s).Shares (x.window s)) :
    (StoredMatrix.inverseInPlace tol (some x) (some d) s).1.ErrsOnly (· = .singular) := by
  have hfactor := StoredMatrix.factorizeInPlace_errsOnly (s := s) tol hsquare
  rw [StoredMatrix.inverseInPlace, checkInverseInPlace_eq hsquare hshape,
    Window.noAlias_of_apart (by simpa using hapart)]
  dsimp only [Result.of, Result.within, bind, Except.bind]
  generalize StoredMatrix.factorizeInPlace tol (some x) s = o at hfactor ⊢
  obtain ⟨r, t⟩ := o
  cases r with
  | ok f => exact Store.errsOnly_commit _ _ _
  | error failure => exact (hfactor.within (.routine .inverse)).cast

theorem inverseInPlace_ranked (h : ∀ c, ¬ (Request.inverseInPlace tol a dst).Overtaken c) :
    (StoredMatrix.inverseInPlace tol a dst s).1.Ranked ((Request.inverseInPlace tol a dst).defects s) where
  absent habsent := inverseInPlace_absent habsent h
  mismatched _ hmismatched := by
    obtain ⟨x, rfl, d, rfl, hshapes⟩ := hmismatched
    exact inverseInPlace_mismatched hshapes
  misshapen _ _ hmisshapen := hmisshapen.elim
  aliased _ hmatched _ haliased := by
    obtain ⟨x, rfl, d, rfl, hshares⟩ := haliased
    obtain ⟨hsquare, hshape⟩ : x.shape.rows = x.shape.cols ∧ x.shape = d.shape := by
      simpa [Request.defects] using hmatched
    refine StoredMatrix.inverseInPlace_failsWith ?_
    rw [checkInverseInPlace_eq hsquare hshape]
    exact ((Window.noAlias_aliased (List.mem_singleton.mpr rfl) hshares).bind _).within _
  computed habsent hmatched _ hapart := by
    obtain ⟨x, rfl⟩ := Option.ne_none_iff_exists'.mp (not_or.mp habsent).1
    obtain ⟨d, rfl⟩ := Option.ne_none_iff_exists'.mp (not_or.mp habsent).2
    obtain ⟨hsquare, hshape⟩ : x.shape.rows = x.shape.cols ∧ x.shape = d.shape := by
      simpa [Request.defects] using hmatched
    exact (inverseInPlace_errsOnly hsquare hshape (by simpa [Request.defects] using hapart)).mono
      fun _ => Or.inl

end

/-! ## All requests -/

/-- The error of a request is that of its defect with the highest rank, or without a defect that of a
singular matrix or of an entry. The only exceptions are the overtaken requests, which fail with the
cause of the check that comes too early. -/
theorem Request.error_ranked_unless_overtaken (q : Request α) (s : Store α) :
    (∀ c, q.Overtaken c → (q.outcome s).FailsWith c) ∧
    ((∀ c, ¬ q.Overtaken c) → (q.outcome s).Ranked (q.defects s)) := by
  cases q with
  | multiply a b =>
      exact ⟨fun c h => (multiply_overtaken h).map _, fun h => (multiply_ranked s h).map _⟩
  | multiplyInto dst a b => exact ⟨fun c h => multiplyInto_overtaken h, fun h => multiplyInto_ranked h⟩
  | solve tol m b => exact ⟨fun c h => (solve_overtaken h).map _, fun h => (solve_ranked s h).map _⟩
  | solveInto f x b => exact ⟨fun c h => solveInto_overtaken h, fun h => solveInto_ranked h⟩
  | inverseInto f dst => exact ⟨fun c h => h.elim, fun _ => inverseInto_ranked f dst s⟩
  | inverseInPlace tol a dst =>
      exact ⟨fun c h => inverseInPlace_overtaken h, fun h => inverseInPlace_ranked h⟩

/-- Inputs that do not go together hide that another argument is not there. -/
theorem Request.mismatch_hides_absent :
    let s : Store Float := ⟨#[#[1, 2], #[3, 4]]⟩
    ∀ q ∈ ([.solve 0 (some (.dense ⟨1, 2, #[1, 2], true⟩)) none,
        .solveInto ⟨1, 0, .identity 1⟩ none (some ⟨1, 0, 2⟩),
        .multiplyInto none (some ⟨1, 2, 0, true⟩) (some ⟨1, 2, 1, true⟩),
        .inverseInPlace 0 (some ⟨1, 2, 0, true⟩) none] : List (Request Float)),
      (q.defects s).absent ∧ (q.outcome s).FailsWith .dimensionMismatch ∧
        ¬ (q.outcome s).Ranked (q.defects s) := by
  intro s q hq
  have hfails : (q.defects s).absent ∧ (q.outcome s).FailsWith .dimensionMismatch := by
    simp only [List.mem_cons, List.not_mem_nil, or_false] at hq
    rcases hq with rfl | rfl | rfl | rfl
    · exact ⟨.inr rfl, _, rfl⟩
    · exact ⟨.inl rfl, _, rfl⟩
    · exact ⟨.inl rfl, _, rfl⟩
    · exact ⟨.inr rfl, _, rfl⟩
  obtain ⟨habsent, path, hpath⟩ := hfails
  refine ⟨habsent, ⟨path, hpath⟩, fun hranked => ?_⟩
  obtain ⟨path', hpath'⟩ := hranked.absent habsent
  cases hpath.symm.trans hpath'

/-- Factors that do not go together, one of which is the output. -/
theorem Request.error_ranked_unless_overtaken_aliased :
    let s : Store Float := ⟨#[#[1, 2], #[3, 4]]⟩
    let q : Request Float :=
      .multiplyInto (some ⟨1, 2, 0, true⟩) (some ⟨1, 2, 0, true⟩) (some ⟨1, 2, 1, true⟩)
    (∀ c, ¬ q.Overtaken c) ∧ (q.defects s).mismatched ∧ (q.defects s).aliased ∧
      (q.outcome s).FailsWith .dimensionMismatch := by
  intro s q
  have hfirst : ∀ c, ¬ q.Overtaken c := by
    rintro c ⟨-, hnone, -⟩
    cases hnone
  have hmismatched : (q.defects s).mismatched := ⟨_, rfl, _, rfl, _, rfl, .inl (by decide)⟩
  have haliased : (q.defects s).aliased :=
    ⟨_, rfl, _, rfl, _, rfl, .inl (Window.overlaps_iff.mp (by decide))⟩
  refine ⟨hfirst, hmismatched, haliased, ?_⟩
  exact ((error_ranked_unless_overtaken q s).2 hfirst).mismatched (by simp [q, defects]) hmismatched

end PivotedLU
