import PivotedLU.Proofs.Factors.Answers
import PivotedLU.Proofs.Store

/-!
# Answers in a store

What the operations on stored matrices and factors leave in their store is what the operations on
values give.
-/

namespace PivotedLU

variable {α : Type} [Scalar α] {n k : Nat} {tol : α} {T : Nat → Nat → α} {s t : Store α} {w x : Window}

/-! ## Tables in windows -/

namespace Window

/-- The first cells of the window hold an `n × n` table. -/
structure Holds (w : Window) (s : Store α) (n : Nat) (T : Nat → Nat → α) : Prop where
  inside : w.Inside s
  room : n * n ≤ w.length
  cell : ∀ r < n, ∀ c < n, w.cellAt s (r * n + c) = T r c

theorem Holds.read (h : w.Holds s n T) {r c : Nat} (hr : r < n) (hc : c < n) :
    w.cells.read s (r * n + c) = .ok (T r c) := by
  rw [read_eq h.inside (Nat.lt_of_lt_of_le (place_lt hr hc) h.room), h.cell r hr c hc]

/-- Cells elsewhere may be written while the table is read. -/
theorem Holds.shows_apart {size : Nat} (h : w.Holds s n T)
    (hapart : (x.take size).overlaps (w.take (n * n)) = false) :
    Reader.Shows w.cells.read n n (s.ChangedOnly (x.take size).Covers) T := by
  intro t r c ht hr hc
  have hcell : w.cellAt t (r * n + c) = w.cellAt s (r * n + c) :=
    cellAt_of_apart (v := w.take (n * n)) hapart ht (place_lt hr hc)
  rw [read_eq (h.inside.of_changedOnly ht) (Nat.lt_of_lt_of_le (place_lt hr hc) h.room), hcell,
    h.cell r hr c hc]

theorem Holds.contents_eq {a : Array α} (h : w.Holds s n fun r c => PivotedLU.cellAt a (r * n + c))
    (hlength : w.length = n * n) (hsize : a.size = n * n) : w.contents s = a := by
  refine Window.contents_eq h.inside (hsize.trans hlength.symm) fun i hi => ?_
  obtain ⟨r, hr, c, hc, rfl⟩ := exists_place (hlength ▸ hi)
  exact h.cell r hr c hc

theorem take_length (w : Window) : w.take w.length = w :=
  rfl

omit [Scalar α] in
theorem contents_whole (s : Store α) (b : Nat) : (whole s b).contents s = s.block b := by
  simp [contents, whole]

omit [Scalar α] in
theorem whole_eq {touched : Nat → Nat → Prop} (h : s.ChangedOnly touched t) (b : Nat) :
    whole t b = whole s b := by
  rw [whole, whole, (h b).size]

/-- A block that was written through its window holds the array whose cells the window shows. -/
theorem Holds.block_eq {touched : Nat → Nat → Prop} {b : Nat} {a : Array α}
    (h : (whole s b).Holds t n fun r c => PivotedLU.cellAt a (r * n + c))
    (hkept : s.ChangedOnly touched t) (hblock : (s.block b).size = n * n)
    (hsize : a.size = n * n) : t.block b = a := by
  rw [← contents_whole, whole_eq hkept]
  exact h.contents_eq hblock hsize

/-- Elimination goes through or finds a singular matrix, whatever the cells hold. -/
theorem eliminate_cases (hin : w.Inside s) (hroom : n * n ≤ w.length) (tol : α) :
    ∃ e π k, Kernel.Ended n tol (fun r c => w.cellAt s (r * n + c)) w.cellAt e π k ∧
      s.ChangedOnly (w.take (n * n)).Covers e.state ∧
      ((e.stopped = none ∧ w.eliminate tol n s = (.ok e.order, e.state)) ∨
        (e.stopped ≠ none ∧ ∃ column, w.eliminate tol n s = (.error (singularAt column), e.state))) := by
  have hcells := w.cells_lawful hin hroom
  obtain ⟨e, π, k, he, hkept, hend⟩ := Kernel.decompose_ok hcells tol (.refl _ s)
    (RowOrder.size_identity n) fun _ _ _ _ => rfl
  refine ⟨e, π, k, hend, hkept, ?_⟩
  cases hstopped : e.stopped with
  | none =>
      refine .inl ⟨rfl, ?_⟩
      simp only [eliminate, he, hstopped]
  | some c =>
      obtain ⟨column, hcolumn⟩ := Kernel.degenerateColumn_ok hcells hkept tol
      refine .inr ⟨by simp, column, ?_⟩
      simp only [eliminate, he, hstopped, hcolumn]

theorem eliminate_eq [Scalar.Ordered α] (htol : Scalar.atMost 0 tol = true) (hw : w.Holds s n T) :
    ∃ e π k, w.eliminate tol n s = (e.answer, e.state) ∧
      s.ChangedOnly (w.take (n * n)).Covers e.state ∧ Kernel.Ended n tol T w.cellAt e π k := by
  have hcells := w.cells_lawful hw.inside hw.room
  obtain ⟨e, π, k, he, hkept, hend⟩ := Kernel.decompose_ok hcells tol (.refl _ s)
    (RowOrder.size_identity n) hw.cell
  refine ⟨e, π, k, ?_, hkept, hend⟩
  have hcolumn := hend.degenerateColumn_eq hcells hkept htol
  simp only [eliminate, he, hcolumn, Kernel.Elimination.answer]
  cases hstopped : e.stopped with
  | none => rfl
  | some c => rfl

end Window

/-! ## Kernels on windows -/

variable {A D : Matrix (Fin n) (Fin n) α} {b : Fin n → α} {o : Except Nat (Answers α)} {a : Answers α}

/-- Elimination in a window ends with the factors in place, or at the column. -/
theorem Answered.eliminate [Scalar.Ordered α] (ho : Answered tol A b o)
    (htol : Scalar.atMost 0 tol = true) (hw : w.Holds s n (entryAt A)) :
    ∃ r t, w.eliminate tol n s = (r, t) ∧ r.Says (o.map (·.factors.order)) ∧
      s.ChangedOnly (w.take (n * n)).Covers t ∧
      ∀ a, o = .ok a → w.Holds t n fun r c => cellAt a.factors.lu (r * n + c) := by
  obtain ⟨e, π, k, he, hkept, hend⟩ := Window.eliminate_eq htol hw
  refine ⟨_, _, he, ?_⟩
  -- The run in the window starts from the table that `o` is about, so it ends as `o` says.
  cases o with
  | ok a =>
      obtain ⟨π', k', hf⟩ := ho.factored
      obtain ⟨hstopped, horder, hcells⟩ := hend.unique hf.ended
      refine ⟨?_, hkept, ?_⟩
      · show e.answer = _
        rw [Kernel.Elimination.answer, hstopped, horder]
      · rintro _ ⟨⟩
        exact ⟨hw.inside.of_changedOnly hkept, hw.room, hcells⟩
  | error c =>
      obtain ⟨e', π', k', hend', hc⟩ := ho
      obtain ⟨hstopped, -⟩ := hend.unique hend'
      refine ⟨⟨[], ?_⟩, hkept, by simp⟩
      rw [Kernel.Elimination.answer, hstopped, hc]
      rfl

namespace Answers.Hold

variable (h : a.Hold tol A b) (hw : w.Holds s n fun r c => cellAt a.factors.lu (r * n + c))

include h hw

theorem determinant_window :
    Kernel.determinant w.cells.read a.factors.order n s = .ok a.determinant := by
  obtain ⟨π, k, hf⟩ := h.factored
  rw [← h.determinant]
  exact hf.determinant_on fun i hi => hw.read hi hi

theorem invert_window (hx : x.Inside s) (hroom : n * n ≤ x.length)
    (hapart : (x.take (n * n)).overlaps (w.take (n * n)) = false) :
    ∃ t, Kernel.invert w.cells.read a.factors.order n x.cells s = .ok t ∧
      s.ChangedOnly (x.take (n * n)).Covers t ∧
      x.Holds t n fun r c => cellAt a.inverse.data (r * n + c) := by
  obtain ⟨π, k, hf⟩ := h.factored
  obtain ⟨t, ht, hkept, hcells⟩ := hf.invert_on h.inverse (x.cells_lawful hx hroom)
    (hw.shows_apart hapart) (.refl _ s)
  exact ⟨t, ht, hkept, hx.of_changedOnly hkept, hroom, hcells⟩

theorem solve_window {v : Window} (hv : v.Inside s) (hrhs : v.contents s = Array.ofFn b)
    (hx : x.Inside s) (hlength : x.length = n) (hapart : x.overlaps (w.take (n * n)) = false)
    (hapart' : x.overlaps v = false) :
    ∃ t, Kernel.solve w.cells.read a.factors.order v.cells.read n x.cells s = .ok t ∧
      x.contents t = a.solution := by
  subst hlength
  obtain ⟨π, k, hf⟩ := h.factored
  have hvlength := Window.length_of_contents hv hrhs
  have hread : ∀ t, s.ChangedOnly x.Covers t → ∀ i < x.length,
      v.cells.read t i = .ok (cellAt (Array.ofFn b) i) := by
    intro t ht i hi
    rw [← hvlength] at hi
    rw [Window.read_of_apart hv hapart' ht hi, ← hrhs, Window.cellAt_contents hv hi]
  obtain ⟨t, ht, hkept, hcells⟩ := hf.solve_on h.solution (x.cells_lawful hx (Nat.le_refl _))
    (hw.shows_apart hapart) hread (.refl _ s)
  exact ⟨t, ht, Window.contents_eq (hx.of_changedOnly hkept) h.size_solution hcells⟩

end Answers.Hold

theorem Answers.Hold.invert_block {g d : Nat} (h : a.Hold tol A b)
    (hw : (Window.whole s g).Holds s n fun r c => cellAt a.factors.lu (r * n + c))
    (hsize : (s.block d).size = n * n) (hapart : d ≠ g) :
    ∃ t, Kernel.invert (Window.whole s g).cells.read a.factors.order n
      (Window.whole s d).cells s = .ok t ∧ t.block d = a.inverse.data := by
  obtain ⟨t, ht, hkept, hholds⟩ := h.invert_window hw (Window.inside_whole s d)
    (Nat.le_of_eq hsize.symm) (Window.overlaps_of_block_ne hapart)
  exact ⟨t, ht, hholds.block_eq hkept hsize h.size_inverse⟩

/-! ## Stored matrices -/

/-- What can be seen in the store after an operation that went through. -/
def afterwards {β γ : Type} (r : Result β × Store α) (look : β → Store α → γ) : Result γ :=
  r.1.map (look · r.2)

namespace StoredMatrix

variable {m dst : StoredMatrix}

omit [Scalar α] in
theorem shape_eq (hm : (m.view s).Shows A) : HasShape.shape m = ⟨Int64.ofNat n, Int64.ofNat n⟩ :=
  hm.operand.shape

omit [Scalar α] in
theorem length_window (hm : (m.view s).Shows A) : (m.window s).length = n * n :=
  hm.data.size

theorem holds_window (hm : (m.view s).Shows A) : (m.window s).Holds s n (entryAt A) := by
  refine ⟨Window.inside_whole s m.block, Nat.le_of_eq (length_window hm).symm, fun r hr c hc => ?_⟩
  exact (Window.cellAt_whole s s m.block _).trans (hm.data.cellAt hr hc)

omit [Scalar α] in
theorem checkInverseInPlace_eq (hm : (m.view s).Shows A) (hdst : (dst.view s).Shows D)
    (hapart : dst.block ≠ m.block) : checkInverseInPlace (some m) (some dst) s = .ok (m, dst) := by
  have halias : (dst.window s).noAlias [m.window s] = .ok () :=
    Window.noAlias_eq (Window.overlaps_of_block_ne hapart)
  simp only [checkInverseInPlace, Check.isSquare_eq (shape_eq hm),
    Check.haveSameShape_eq ((shape_eq hm).trans (shape_eq hdst).symm), bind, Except.bind, halias]
  rfl

end StoredMatrix

section

variable [Scalar.Ordered α] (ho : Answered tol A b o) (htol : Scalar.atMost 0 tol = true)
  {m dst : StoredMatrix} (hm : (m.view s).Shows A)

include ho htol hm

theorem Answered.factorizeInPlace : ∃ r t, StoredMatrix.factorizeInPlace tol (some m) s = (r, t) ∧
    r.Says (o.map fun a => ⟨n, m.block, a.factors.order⟩) ∧ s.ChangedOnly (m.window s).Covers t ∧
    ∀ a, o = .ok a → (m.window s).Holds t n fun r c => cellAt a.factors.lu (r * n + c) := by
  obtain ⟨r, t, he, hr, hkept, hholds⟩ := ho.eliminate htol (StoredMatrix.holds_window hm)
  have hrows : m.rows = n := hm.rows
  rw [← StoredMatrix.length_window hm] at hkept
  refine ⟨Result.within (.routine .factorize) (r.map (StoredFactors.mk m.rows m.block)), t, ?_, ?_,
    hkept, hholds⟩
  · simp only [StoredMatrix.factorizeInPlace, Check.isSquare_eq (StoredMatrix.shape_eq hm), Result.of,
      Result.within, hrows, he]
    cases r with
    | ok order => rfl
    | error failure => rfl
  · rw [hrows]
    refine Result.Says.within _ ?_
    cases o with
    | ok a => exact hr.map _
    | error c => exact hr.map _

/-- Factors made in place are those made from a copy. -/
theorem Answered.factorizeInPlace_view :
    (afterwards (StoredMatrix.factorizeInPlace tol (some m) s) StoredFactors.view).Says
      (o.map (·.factors)) := by
  obtain ⟨r, t, he, hr, hkept, hholds⟩ := ho.factorizeInPlace htol hm
  rw [he, afterwards]
  cases o with
  | ok a =>
      obtain ⟨π, k, hf⟩ := ho.factored
      have hr : r = .ok ⟨n, m.block, a.factors.order⟩ := hr
      have hblock : t.block m.block = a.factors.lu :=
        (hholds a rfl).block_eq hkept hm.data.size hf.size
      rw [hr]
      show Except.ok (Factors.mk n (t.block m.block) a.factors.order) = .ok a.factors
      rw [hblock, ← hf.dim]
  | error c => exact hr.map _

theorem Answered.determinantInPlace :
    (StoredMatrix.determinantInPlace tol (some m) s).1.Says (o.map (·.determinant)) := by
  obtain ⟨r, t, he, hr, hkept, hholds⟩ := ho.factorizeInPlace htol hm
  rw [StoredMatrix.determinantInPlace, he]
  cases o with
  | ok a =>
      have hr : r = .ok ⟨n, m.block, a.factors.order⟩ := hr
      have hdet := Answers.Hold.determinant_window ho (hholds a rfl)
      rw [hr]
      show Result.ofFaulty
        (Kernel.determinant (Window.whole t m.block).cells.read a.factors.order n t) = _
      rw [Window.whole_eq hkept]
      exact congrArg Result.ofFaulty hdet
  | error c =>
      obtain ⟨path, rfl⟩ := hr
      exact ⟨.routine .determinant :: path, rfl⟩

theorem Answered.inverseInPlace (hdst : (dst.view s).Shows D) (hapart : dst.block ≠ m.block) :
    (afterwards (StoredMatrix.inverseInPlace tol (some m) (some dst) s) fun _ t =>
      t.block dst.block).Says (o.map (·.inverse.data)) := by
  obtain ⟨r, t, he, hr, hkept, hholds⟩ := ho.factorizeInPlace htol hm
  simp only [StoredMatrix.inverseInPlace, StoredMatrix.checkInverseInPlace_eq hm hdst hapart, he]
  cases o with
  | ok a =>
      have hr : r = .ok ⟨n, m.block, a.factors.order⟩ := hr
      have hw := hholds a rfl
      have hsize : (t.block dst.block).size = n * n := (hkept dst.block).size.trans hdst.data.size
      rw [StoredMatrix.window, ← Window.whole_eq hkept] at hw
      obtain ⟨u, hu, hblock⟩ := Answers.Hold.invert_block ho hw hsize hapart
      rw [hr]
      show afterwards (t.commit (Kernel.invert (Window.whole t m.block).cells.read a.factors.order n
        (Window.whole t dst.block).cells t)) (fun _ t => t.block dst.block) = .ok a.inverse.data
      rw [hu, ← hblock]
      rfl
  | error c =>
      obtain ⟨path, rfl⟩ := hr
      exact ⟨.routine .inverse :: path, rfl⟩

end

/-! ## Stored factors -/

section

variable (h : a.Hold tol A b) {g : StoredFactors} (hg : g.view s = a.factors)

include h hg

theorem Answers.Hold.stored : g.n = n ∧ g.order = a.factors.order ∧
    (Window.whole s g.block).Holds s n fun r c => cellAt a.factors.lu (r * n + c) := by
  obtain ⟨π, k, hf⟩ := h.factored
  have hlu : s.block g.block = a.factors.lu := congrArg Factors.lu hg
  refine ⟨(congrArg Factors.n hg).trans hf.dim, congrArg Factors.order hg,
    Window.inside_whole s g.block, ?_, fun r hr c hc => ?_⟩
  · rw [Window.whole, hlu]
    exact Nat.le_of_eq hf.size.symm
  · rw [Window.cellAt_whole, hlu]

theorem Answers.Hold.inverseInto {dst : StoredMatrix} (hdst : (dst.view s).Shows D)
    (hapart : dst.block ≠ g.block) :
    ∃ t, g.inverseInto (some dst) s = (.ok (), t) ∧ t.block dst.block = a.inverse.data := by
  obtain ⟨hn, horder, hw⟩ := h.stored hg
  obtain ⟨t, ht, hblock⟩ := h.invert_block hw hdst.data.size hapart
  have halias : (dst.window s).noAlias [Window.whole s g.block] = .ok () :=
    Window.noAlias_eq (Window.overlaps_of_block_ne hapart)
  have hrows : dst.rows = n := hdst.rows
  have hcheck : g.checkInverseInto (some dst) s = .ok dst := by
    simp only [StoredFactors.checkInverseInto, Check.isSquare_eq (StoredMatrix.shape_eq hdst), hn,
      hrows, ne_eq, not_true_eq_false, if_false, bind, Except.bind, halias]
    rfl
  refine ⟨t, ?_, hblock⟩
  rw [StoredFactors.inverseInto, hcheck, horder, hn]
  exact congrArg s.commit ht

theorem Answers.Hold.solveInto {v : Window} (hv : v.Inside s) (hrhs : v.contents s = Array.ofFn b)
    (hx : x.Inside s) (hlength : x.length = n) (hapart : x.block ≠ g.block)
    (hapart' : x.overlaps v = false) :
    ∃ t, g.solveInto (some x) (some v) s = (.ok (), t) ∧ x.contents t = a.solution := by
  obtain ⟨hn, horder, hw⟩ := h.stored hg
  obtain ⟨t, ht, hcontents⟩ := h.solve_window hw hv hrhs hx hlength
    (Window.overlaps_of_block_ne hapart) hapart'
  have hvlength := Window.length_of_contents hv hrhs
  have hcheck : g.checkSolveInto (some x) (some v) = .ok () := by
    obtain ⟨π, k, hf⟩ := h.factored
    simp only [StoredFactors.checkSolveInto, Option.map_some, hvlength, hlength, hn,
      Check.hasLength_eq hf.fits.rows_lt, Option.getD_some, Window.noAlias_eq hapart', bind,
      Except.bind]
    rfl
  refine ⟨t, ?_, hcontents⟩
  rw [StoredFactors.solveInto, hcheck, horder, hn]
  exact congrArg s.commit ht

end

end PivotedLU
