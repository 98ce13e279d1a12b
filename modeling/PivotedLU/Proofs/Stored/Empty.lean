import PivotedLU.Proofs.Stored.Filled

/-!
# The empty matrix

Callers can have filled matrices and the one without rows and columns, which is square and has no
entry that could be too small for a pivot. So it is factored, and its factors have no first entry for
a determinant to begin with.
-/

namespace PivotedLU

variable {α : Type} [Scalar α] {m : StoredMatrix} {s : Store α}

/-! ## Copied -/

theorem factorize_empty (tol : α) :
    factorize tol (some (.dense .empty)) = .ok ⟨0, #[], (RowOrder.identity 0).reset⟩ := rfl

theorem Factors.determinant_empty (p : RowOrder) :
    (⟨0, #[], p⟩ : Factors α).determinant = .error .outOfBounds := rfl

theorem determinant_empty (tol : α) :
    determinant tol (some (.dense .empty)) = .error (.fault .outOfBounds) := rfl

/-! ## In place -/

namespace StoredMatrix

omit [Scalar α] in
theorem eq_of_view_empty (hm : m.view s = .empty) : m = ⟨0, 0, m.block, false⟩ ∧ s.block m.block = #[] := by
  obtain ⟨rows, cols, block, strict⟩ := m
  simp only [view, Dense.empty, Dense.mk.injEq] at hm
  obtain ⟨rfl, rfl, hblock, rfl⟩ := hm
  exact ⟨rfl, hblock⟩

theorem factorizeInPlace_empty (tol : α) (hm : m.view s = .empty) :
    factorizeInPlace tol (some m) s = (.ok ⟨0, m.block, (RowOrder.identity 0).reset⟩, s) := by
  rw [(eq_of_view_empty hm).1]
  rfl

theorem determinantInPlace_empty (tol : α) (hm : m.view s = .empty) :
    determinantInPlace tol (some m) s = (.error (.fault .outOfBounds), s) := by
  rw [determinantInPlace, factorizeInPlace_empty tol hm]
  have hread : (Window.whole s m.block).cells.read s 0 = .error .outOfBounds := by
    simp [Window.cells, Window.whole, (eq_of_view_empty hm).2]
  simp only [Kernel.determinant, hread, bind, Except.bind, Result.ofFaulty]

end StoredMatrix

/-! ## All matrices -/

theorem Factors.Filled.no_fault {f : Factors α} (h : f.Filled) :
    f.n ≠ 0 ∧ ¬ ∃ fault, f.determinant = .error fault := by
  refine ⟨Nat.ne_of_gt h.fits.rows_pos, ?_⟩
  rintro ⟨fault, hfault⟩
  obtain ⟨v, hv⟩ := h.determinant_ok
  cases hv.symm.trans hfault

theorem Result.Gives.no_fault {β : Type} {r : Result β} {post : β → Prop} (h : r.Gives post) :
    ¬ ∃ fault, r = .error (.fault fault) := by
  rintro ⟨fault, rfl⟩
  rcases h with ⟨v, hv, _⟩ | ⟨e, he⟩
  · cases hv
  · cases he

/-- The only matrix with factors of dimension zero is the empty one, and it is the only one for which
a determinant faults: that of its factors, its own, and the one that factors it in place. -/
theorem determinant_faults_iff_empty (tol : α) :
    (∀ m : Option (Operand α), (∀ d ∈ m, d.Filled ∨ d = .dense .empty) →
      (∀ f, factorize tol m = .ok f → (f.n = 0 ↔ m = some (.dense .empty)) ∧
        ((∃ fault, f.determinant = .error fault) ↔ f.n = 0)) ∧
      ((∃ fault, determinant tol m = .error (.fault fault)) ↔ m = some (.dense .empty))) ∧
    ∀ (m : Option StoredMatrix) (s : Store α), (∀ d ∈ m, d.Fills s ∨ d.view s = .empty) →
      (∀ f t, StoredMatrix.factorizeInPlace tol m s = (.ok f, t) →
        (f.n = 0 ↔ ∃ d ∈ m, d.view s = .empty) ∧
        ((∃ fault, (f.view t).determinant = .error fault) ↔ f.n = 0)) ∧
      ((∃ fault, (StoredMatrix.determinantInPlace tol m s).1 = .error (.fault fault)) ↔
        ∃ d ∈ m, d.view s = .empty) := by
  refine ⟨fun m hm => ?_, fun m s hm => ?_⟩
  · by_cases hempty : m = some (.dense .empty)
    · subst hempty
      rw [factorize_empty, determinant_empty]
      refine ⟨?_, by simp⟩
      rintro _ ⟨⟩
      exact ⟨by simp, by simp [Factors.determinant_empty]⟩
    · have hfilled : ∀ d ∈ m, d.Filled := fun d hd => (hm d hd).resolve_right fun h => hempty (h ▸ hd)
      refine ⟨fun f hf => ?_, iff_of_false (determinant_gives tol hfilled).no_fault hempty⟩
      obtain ⟨hn, hdet⟩ := ((factorize_gives tol hfilled).of_ok hf).no_fault
      exact ⟨iff_of_false hn hempty, iff_of_false hdet hn⟩
  · by_cases hempty : ∃ d ∈ m, d.view s = .empty
    · obtain ⟨d, rfl, hd⟩ := hempty
      rw [StoredMatrix.factorizeInPlace_empty tol hd, StoredMatrix.determinantInPlace_empty tol hd]
      refine ⟨?_, iff_of_true ⟨_, rfl⟩ ⟨d, rfl, hd⟩⟩
      rintro _ _ ⟨⟩
      refine ⟨iff_of_true rfl ⟨d, rfl, hd⟩, iff_of_true ⟨.outOfBounds, ?_⟩ rfl⟩
      rw [StoredFactors.view, (StoredMatrix.eq_of_view_empty hd).2]
      exact Factors.determinant_empty _
    · have hfills : ∀ d ∈ m, d.Fills s := fun d hd => (hm d hd).resolve_right fun h => hempty ⟨d, hd, h⟩
      refine ⟨fun f t hf => ?_, iff_of_false (StoredMatrix.determinantInPlace_served tol hfills).gives.no_fault hempty⟩
      have hserved := (StoredMatrix.factorizeInPlace_served tol hfills).gives
      rw [hf] at hserved
      obtain ⟨hn, hdet⟩ := (hserved.of_ok rfl).1.no_fault
      exact ⟨iff_of_false hn hempty, iff_of_false hdet hn⟩

/-- Two rows that are exchanged, in a copy and in place. -/
theorem determinant_faults_iff_empty_exchanged :
    (∃ f : Factors Float, factorize 0 (some (.dense ⟨2, 2, #[1, 2, 2, 0], true⟩)) = .ok f ∧
      f.n ≠ 0 ∧ ¬ ∃ fault, f.determinant = .error fault) ∧
    (¬ ∃ fault, determinant (0 : Float) (some (.dense ⟨2, 2, #[1, 2, 2, 0], true⟩)) =
      .error (.fault fault)) ∧
    (∃ f t, StoredMatrix.factorizeInPlace (0 : Float) (some ⟨2, 2, 0, true⟩) ⟨#[#[1, 2, 2, 0]]⟩ =
      (.ok f, t) ∧ f.n ≠ 0 ∧ ¬ ∃ fault, (f.view t).determinant = .error fault) ∧
    ¬ ∃ fault, (StoredMatrix.determinantInPlace (0 : Float) (some ⟨2, 2, 0, true⟩)
      ⟨#[#[1, 2, 2, 0]]⟩).1 = .error (.fault fault) := by
  have hfilled : (⟨2, 2, #[1, 2, 2, 0], true⟩ : Dense Float).Filled :=
    ⟨⟨by decide, by decide, by decide⟩, rfl⟩
  have hcopied : factorize (0 : Float) (some (.dense ⟨2, 2, #[1, 2, 2, 0], true⟩)) =
      .ok ⟨2, #[2, 0, 0.5, 2], ⟨#[1, 0, 3]⟩⟩ := by
    decide +kernel
  have hstored : (StoredMatrix.factorizeInPlace (0 : Float) (some ⟨2, 2, 0, true⟩)
      ⟨#[#[1, 2, 2, 0]]⟩).1 = .ok ⟨2, 0, ⟨#[1, 0, 3]⟩⟩ := by
    decide +kernel
  obtain ⟨t, hplaced⟩ : ∃ t, StoredMatrix.factorizeInPlace (0 : Float) (some ⟨2, 2, 0, true⟩)
      ⟨#[#[1, 2, 2, 0]]⟩ = (.ok ⟨2, 0, ⟨#[1, 0, 3]⟩⟩, t) := by
    rw [← hstored]
    exact ⟨_, Prod.mk.eta.symm⟩
  obtain ⟨hcopy, hplace⟩ := determinant_faults_iff_empty (0 : Float)
  obtain ⟨hfactors, hdet⟩ := hcopy (some (.dense ⟨2, 2, #[1, 2, 2, 0], true⟩)) (by
    rintro _ ⟨⟩
    exact .inl hfilled)
  obtain ⟨hfactors', hdet'⟩ := hplace (some ⟨2, 2, 0, true⟩) ⟨#[#[1, 2, 2, 0]]⟩ (by
    rintro _ ⟨⟩
    exact .inl hfilled)
  have hn : (2 : Nat) ≠ 0 := by decide
  refine ⟨⟨_, hcopied, hn, mt (hfactors _ hcopied).2.mp hn⟩, mt hdet.mp ?_,
    ⟨_, _, hplaced, hn, mt (hfactors' _ _ hplaced).2.mp hn⟩, mt hdet'.mp ?_⟩
  · rintro ⟨⟩
  · rintro ⟨_, ⟨⟩, ⟨⟩⟩

/-- The dimension zero is there, and so are the faults. -/
theorem empty_factors_of_dimension_zero : ∃ f : Factors Float,
    factorize 0 (some (.dense .empty)) = .ok f ∧ f.n = 0 ∧ f.determinant = .error .outOfBounds ∧
      determinant (0 : Float) (some (.dense .empty)) = .error (.fault .outOfBounds) ∧
      (StoredMatrix.determinantInPlace (0 : Float) (some ⟨0, 0, 0, false⟩) ⟨#[#[]]⟩).1 =
        .error (.fault .outOfBounds) :=
  ⟨_, factorize_empty 0, rfl, Factors.determinant_empty _, determinant_empty 0,
    congrArg Prod.fst (StoredMatrix.determinantInPlace_empty 0 rfl)⟩

end PivotedLU
