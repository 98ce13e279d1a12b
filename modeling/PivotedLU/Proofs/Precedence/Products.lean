import PivotedLU.Proofs.Precedence.Causes
import PivotedLU.Stored.Matrix

/-!
# Which error comes first

The arguments of one call can be wrong in several ways. First counts that an argument is not there,
then that the dimensions are not acceptable (those that do not go together before a shape that is
empty or too large), then that the output shares cells with an input, and only then what the
computation finds. Each operation is held against this order, and `Request.Overtaken` are the calls
that leave it.
-/

namespace PivotedLU

variable {α β γ : Type}

/-! ## Ranks -/

/-- What is wrong with the arguments of a call, by rank, and the causes that matrices known by their
entries answer themselves. -/
structure Defects where
  absent : Prop
  mismatched : Prop
  misshapen : Prop
  aliased : Prop
  refused : Cause → Prop

/-- The error is that of the defect with the highest rank. Without a defect there is a result, a
singular matrix, or what an entry answered. -/
structure Result.Ranked (d : Defects) (r : Result β) : Prop where
  absent : d.absent → r.FailsWith .absent
  mismatched : ¬ d.absent → d.mismatched → r.FailsWith .dimensionMismatch
  misshapen : ¬ d.absent → ¬ d.mismatched → d.misshapen → r.FailsWith .invalidDimensions
  aliased : ¬ d.absent → ¬ d.mismatched → ¬ d.misshapen → d.aliased → r.FailsWith .aliasedOutput
  computed : ¬ d.absent → ¬ d.mismatched → ¬ d.misshapen → ¬ d.aliased →
    r.ErrsOnly fun c => c = .singular ∨ d.refused c

theorem Result.Ranked.map {d : Defects} {r : Result β} (g : β → γ) (h : r.Ranked d) :
    Ranked d (r.map g) where
  absent h₁ := (h.absent h₁).map g
  mismatched h₁ h₂ := (h.mismatched h₁ h₂).map g
  misshapen h₁ h₂ h₃ := (h.misshapen h₁ h₂ h₃).map g
  aliased h₁ h₂ h₃ h₄ := (h.aliased h₁ h₂ h₃ h₄).map g
  computed h₁ h₂ h₃ h₄ := (h.computed h₁ h₂ h₃ h₄).map g

/-- The operations with more than one argument that can be wrong. -/
inductive Request (α : Type) where
  | multiply (a b : Option (Operand α))
  | multiplyInto (dst a b : Option StoredMatrix)
  | solve (tol : α) (m : Option (Operand α)) (b : Option (Array α))
  | solveInto (f : StoredFactors) (x b : Option Window)
  | inverseInto (f : StoredFactors) (dst : Option StoredMatrix)
  | inverseInPlace (tol : α) (a dst : Option StoredMatrix)

namespace Request

/-- Performs a request; of its answer only the failure counts here. -/
def outcome [Scalar α] (s : Store α) : Request α → Result Unit
  | .multiply a b => (PivotedLU.multiply a b).map fun _ => ()
  | .multiplyInto dst a b => (StoredMatrix.multiplyInto dst a b s).1
  | .solve tol m b => (PivotedLU.solve tol m b).map fun _ => ()
  | .solveInto f x b => (f.solveInto x b s).1
  | .inverseInto f dst => (f.inverseInto dst s).1
  | .inverseInPlace tol a dst => (StoredMatrix.inverseInPlace tol a dst s).1

/-- What is wrong with the arguments of a request. -/
def defects (s : Store α) : Request α → Defects
  | .multiply a b => {
      absent := a = none ∨ b = none
      mismatched := ∃ x ∈ a, ∃ y ∈ b, x.shape.cols ≠ y.shape.rows
      misshapen := ∃ x ∈ a, ∃ y ∈ b, (⟨x.shape.rows, y.shape.cols⟩ : Shape).isValid = false ∨
        x.Misshapen ∨ y.Misshapen
      aliased := False
      refused := fun c => (∃ x ∈ a, x.Refuses c) ∨ ∃ y ∈ b, y.Refuses c }
  | .multiplyInto dst a b => {
      absent := dst = none ∨ a = none ∨ b = none
      mismatched := ∃ d ∈ dst, ∃ x ∈ a, ∃ y ∈ b,
        x.shape.cols ≠ y.shape.rows ∨ d.rows ≠ x.rows ∨ d.cols ≠ y.cols
      misshapen := False
      aliased := ∃ d ∈ dst, ∃ x ∈ a, ∃ y ∈ b,
        (d.window s).Shares (x.window s) ∨ (d.window s).Shares (y.window s)
      refused := fun _ => False }
  | .solve _ m b => {
      absent := m = none ∨ b = none
      mismatched := ∃ x ∈ m, ∃ v ∈ b,
        x.shape.rows ≠ x.shape.cols ∨ (v.size : Int) ≠ x.shape.rows.toInt
      misshapen := ∃ x ∈ m, x.Misshapen
      aliased := False
      refused := fun c => ∃ x ∈ m, x.Refuses c }
  | .solveInto f x b => {
      absent := x = none ∨ b = none
      mismatched := ∃ u ∈ x, ∃ v ∈ b,
        (v.length : Int) ≠ (Int64.ofNat f.n).toInt ∨ (u.length : Int) ≠ (Int64.ofNat f.n).toInt
      misshapen := False
      aliased := ∃ u ∈ x, ∃ v ∈ b, u.Shares v
      refused := fun _ => False }
  | .inverseInto f dst => {
      absent := dst = none
      mismatched := ∃ d ∈ dst, d.shape.rows ≠ d.shape.cols ∨ d.rows ≠ f.n
      misshapen := False
      aliased := ∃ d ∈ dst, (d.window s).Shares (Window.whole s f.block)
      refused := fun _ => False }
  | .inverseInPlace _ a dst => {
      absent := a = none ∨ dst = none
      mismatched := ∃ x ∈ a, ∃ d ∈ dst, x.shape.rows ≠ x.shape.cols ∨ x.shape ≠ d.shape
      misshapen := False
      aliased := ∃ x ∈ a, ∃ d ∈ dst, (d.window s).Shares (x.window s)
      refused := fun _ => False }

/-- The requests whose first failing check is not the one of the highest rank, with the cause that it
gives: the dimensions of the inputs are compared before the last argument is looked for, and the
entries of a first factor are read before the shape of the second one is looked at. -/
def Overtaken : Request α → Cause → Prop
  | .multiply a b, c => ∃ x ∈ a, ∃ y ∈ b, x.shape.cols = y.shape.rows ∧
      (⟨x.shape.rows, y.shape.cols⟩ : Shape).isValid = true ∧ ¬ x.Misshapen ∧ y.Misshapen ∧
      x.flatten.FailsWith c
  | .multiplyInto dst a b, c => c = .dimensionMismatch ∧ dst = none ∧
      ∃ x ∈ a, ∃ y ∈ b, x.shape.cols ≠ y.shape.rows
  | .solve _ m b, c => c = .dimensionMismatch ∧ b = none ∧ ∃ x ∈ m, x.shape.rows ≠ x.shape.cols
  | .solveInto f x b, c => c = .dimensionMismatch ∧ x = none ∧
      ∃ v ∈ b, (v.length : Int) ≠ (Int64.ofNat f.n).toInt
  | .inverseInto _ _, _ => False
  | .inverseInPlace _ a dst, c => c = .dimensionMismatch ∧ dst = none ∧
      ∃ x ∈ a, x.shape.rows ≠ x.shape.cols

end Request

/-! ## Products -/

variable [Scalar α]

section

variable {a b : Option (Operand α)} {x y : Operand α} {c : Cause}

/-- What follows the comparison of the inner dimensions. -/
theorem multiply_eq (hinner : x.shape.cols = y.shape.rows) : multiply (some x) (some y) =
    Result.of .multiply (Dense.zeros ⟨x.shape.rows, y.shape.cols⟩ >>= fun out => x.flatten >>= fun u =>
      y.flatten >>= fun v => Result.ofFaulty (Kernel.product (Reader.fixed u) (Reader.fixed v)
        Cells.array x.rowCount x.colCount y.colCount out.data) >>= fun data =>
          .ok { out with data }) := by
  rw [multiply, Check.areMultipliable_ok hinner]
  rfl

theorem zeros_of_isValid {shape : Shape} (h : ¬ shape.isValid = false) :
    ∃ d : Dense α, Dense.zeros shape = .ok d := by
  rw [Dense.zeros, if_pos (Bool.of_not_eq_false h)]
  exact ⟨_, rfl⟩

theorem multiply_overtaken (h : (Request.multiply a b).Overtaken c) : (multiply a b).FailsWith c := by
  obtain ⟨x, rfl, y, rfl, hinner, hvalid, -, -, hread⟩ := h
  obtain ⟨out, hout⟩ := zeros_of_isValid (α := α) (Bool.not_eq_false _ ▸ hvalid)
  rw [multiply_eq hinner, hout]
  exact (hread.bind _).within _

/-- A shape that is not accepted is found, unless an entry of the first factor comes before. -/
theorem multiply_misshapen (hinner : x.shape.cols = y.shape.rows)
    (h : (⟨x.shape.rows, y.shape.cols⟩ : Shape).isValid = false ∨ x.Misshapen ∨ y.Misshapen)
    (hfirst : ∀ c, ¬ (Request.multiply (some x) (some y)).Overtaken c) :
    (multiply (some x) (some y)).FailsWith .invalidDimensions := by
  rw [multiply_eq hinner]
  refine Result.FailsWith.within _ ?_
  by_cases hproduct : (⟨x.shape.rows, y.shape.cols⟩ : Shape).isValid = false
  · rw [Dense.zeros, hproduct]
    exact (Result.failsWith_fail _).bind _
  obtain ⟨out, hout⟩ := zeros_of_isValid (α := α) hproduct
  rw [hout]
  by_cases hx : x.Misshapen
  · exact (Operand.flatten_of_misshapen hx).bind _
  have hy : y.Misshapen := (h.resolve_left hproduct).resolve_left hx
  rcases x.flatten_cases with ⟨u, hu⟩ | ⟨c, hrefused⟩
  · show (x.flatten >>= _ : Result (Dense α)).FailsWith _
    rw [hu]
    exact (Operand.flatten_of_misshapen hy).bind _
  · exact absurd ⟨x, rfl, y, rfl, hinner, Bool.of_not_eq_false hproduct, hx, hy, hrefused⟩ (hfirst c)

theorem multiply_errsOnly (hinner : x.shape.cols = y.shape.rows)
    (h : ¬ ((⟨x.shape.rows, y.shape.cols⟩ : Shape).isValid = false ∨ x.Misshapen ∨ y.Misshapen)) :
    (multiply (some x) (some y)).ErrsOnly fun c => x.Refuses c ∨ y.Refuses c := by
  obtain ⟨hproduct, hx, hy⟩ : _ ∧ _ ∧ _ := ⟨(not_or.mp h).1, not_or.mp (not_or.mp h).2⟩
  obtain ⟨out, hout⟩ := zeros_of_isValid (α := α) hproduct
  rw [multiply_eq hinner, hout]
  refine Result.ErrsOnly.within _ ?_
  refine ((Operand.flatten_errsOnly hx).mono fun _ => Or.inl).bind fun u _ => ?_
  refine ((Operand.flatten_errsOnly hy).mono fun _ => Or.inr).bind fun v _ => ?_
  exact (Result.errsOnly_ofFaulty _ _).bind fun data _ => Result.errsOnly_ok _ _

theorem multiply_ranked (s : Store α) (h : ∀ c, ¬ (Request.multiply a b).Overtaken c) :
    (multiply a b).Ranked ((Request.multiply a b).defects s) where
  absent habsent := ((Check.areMultipliable_absent habsent).bind _).within _
  mismatched _ hmismatched := by
    obtain ⟨x, rfl, y, rfl, hinner⟩ := hmismatched
    exact ((Check.areMultipliable_mismatch hinner).bind _).within _
  misshapen _ hmatched hmisshapen := by
    obtain ⟨x, rfl, y, rfl, hshapes⟩ := hmisshapen
    exact multiply_misshapen (by simpa [Request.defects] using hmatched) hshapes h
  aliased _ _ _ haliased := haliased.elim
  computed habsent hmatched hshaped _ := by
    obtain ⟨x, rfl⟩ := Option.ne_none_iff_exists'.mp (not_or.mp habsent).1
    obtain ⟨y, rfl⟩ := Option.ne_none_iff_exists'.mp (not_or.mp habsent).2
    have hinner : x.shape.cols = y.shape.rows := by simpa [Request.defects] using hmatched
    refine (multiply_errsOnly hinner (by simpa [Request.defects] using hshaped)).mono fun c hc => ?_
    exact .inr (by simpa [Request.defects] using hc)

end

section

variable {dst a b : Option StoredMatrix} {d x y : StoredMatrix} {c : Cause} {s : Store α}

theorem StoredMatrix.multiplyInto_failsWith (h : (checkMultiplyInto dst a b s).FailsWith c) :
    (multiplyInto dst a b s).1.FailsWith c := by
  obtain ⟨path, h⟩ := h
  rw [multiplyInto, h]
  exact ⟨path, rfl⟩

theorem multiplyInto_overtaken (h : (Request.multiplyInto dst a b : Request α).Overtaken c) :
    (StoredMatrix.multiplyInto dst a b s).1.FailsWith c := by
  obtain ⟨rfl, rfl, x, rfl, y, rfl, hinner⟩ := h
  exact StoredMatrix.multiplyInto_failsWith (((Check.areMultipliable_mismatch hinner).bind _).within _)

theorem multiplyInto_absent (h : dst = none ∨ a = none ∨ b = none)
    (hfirst : ∀ c, ¬ (Request.multiplyInto dst a b : Request α).Overtaken c) :
    (StoredMatrix.multiplyInto dst a b s).1.FailsWith .absent := by
  refine StoredMatrix.multiplyInto_failsWith (Result.FailsWith.within _ ?_)
  by_cases hinputs : a = none ∨ b = none
  · exact (Check.areMultipliable_absent hinputs).bind _
  obtain ⟨x, rfl⟩ := Option.ne_none_iff_exists'.mp (not_or.mp hinputs).1
  obtain ⟨y, rfl⟩ := Option.ne_none_iff_exists'.mp (not_or.mp hinputs).2
  obtain rfl : dst = none := h.resolve_right hinputs
  have hinner : x.shape.cols = y.shape.rows := by
    by_contra hne
    exact hfirst _ ⟨rfl, rfl, x, rfl, y, rfl, hne⟩
  rw [Check.areMultipliable_ok hinner]
  exact ⟨_, rfl⟩

theorem multiplyInto_mismatched
    (h : x.shape.cols ≠ y.shape.rows ∨ d.rows ≠ x.rows ∨ d.cols ≠ y.cols) :
    (StoredMatrix.multiplyInto (some d) (some x) (some y) s).1.FailsWith .dimensionMismatch := by
  refine StoredMatrix.multiplyInto_failsWith (Result.FailsWith.within _ ?_)
  by_cases hinner : x.shape.cols = y.shape.rows
  · rw [Check.areMultipliable_ok hinner]
    show Result.FailsWith (if _ then _ else _) _
    rw [if_pos (h.resolve_left (not_not.mpr hinner))]
    exact Result.failsWith_fail _
  · exact (Check.areMultipliable_mismatch hinner).bind _

theorem multiplyInto_aliased
    (hmatched : ¬ (x.shape.cols ≠ y.shape.rows ∨ d.rows ≠ x.rows ∨ d.cols ≠ y.cols))
    (h : (d.window s).Shares (x.window s) ∨ (d.window s).Shares (y.window s)) :
    (StoredMatrix.multiplyInto (some d) (some x) (some y) s).1.FailsWith .aliasedOutput := by
  obtain ⟨hinner, hshape⟩ := not_or.mp hmatched
  refine StoredMatrix.multiplyInto_failsWith (Result.FailsWith.within _ ?_)
  rw [Check.areMultipliable_ok (not_not.mp hinner)]
  show Result.FailsWith (if _ then _ else _) _
  rw [if_neg hshape]
  rcases h with h | h
  · exact (Window.noAlias_aliased (by simp) h).bind _
  · exact (Window.noAlias_aliased (by simp) h).bind _

theorem multiplyInto_errsOnly (p : Cause → Prop)
    (hmatched : ¬ (x.shape.cols ≠ y.shape.rows ∨ d.rows ≠ x.rows ∨ d.cols ≠ y.cols))
    (hapart : ¬ ((d.window s).Shares (x.window s) ∨ (d.window s).Shares (y.window s))) :
    (StoredMatrix.multiplyInto (some d) (some x) (some y) s).1.ErrsOnly p := by
  obtain ⟨hinner, hshape⟩ := not_or.mp hmatched
  obtain ⟨hx, hy⟩ := not_or.mp hapart
  have hinputs : ∀ v ∈ [x.window s, y.window s], ¬ (d.window s).Shares v := by simp [hx, hy]
  rw [StoredMatrix.multiplyInto,
    StoredMatrix.checkMultiplyInto_ok (not_not.mp hinner) hshape hinputs]
  exact Store.errsOnly_commit _ _ _

theorem multiplyInto_ranked (h : ∀ c, ¬ (Request.multiplyInto dst a b : Request α).Overtaken c) :
    (StoredMatrix.multiplyInto dst a b s).1.Ranked ((Request.multiplyInto dst a b).defects s) where
  absent habsent := multiplyInto_absent habsent h
  mismatched _ hmismatched := by
    obtain ⟨d, rfl, x, rfl, y, rfl, hshapes⟩ := hmismatched
    exact multiplyInto_mismatched hshapes
  misshapen _ _ hmisshapen := hmisshapen.elim
  aliased _ hmatched _ haliased := by
    obtain ⟨d, rfl, x, rfl, y, rfl, hshares⟩ := haliased
    exact multiplyInto_aliased (by simpa [Request.defects] using hmatched) hshares
  computed habsent hmatched _ hapart := by
    obtain ⟨d, rfl⟩ := Option.ne_none_iff_exists'.mp (not_or.mp habsent).1
    obtain ⟨x, rfl⟩ := Option.ne_none_iff_exists'.mp (not_or.mp (not_or.mp habsent).2).1
    obtain ⟨y, rfl⟩ := Option.ne_none_iff_exists'.mp (not_or.mp (not_or.mp habsent).2).2
    exact multiplyInto_errsOnly _ (by simpa [Request.defects] using hmatched)
      (by simpa [Request.defects] using hapart)

end

end PivotedLU
