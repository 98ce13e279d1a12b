import PivotedLU.Proofs.Factors.Filled
import PivotedLU.Proofs.Flat.Checks
import PivotedLU.Proofs.Stored.Answers

/-!
# Answers of flat buffers

The operations on flat buffers have no tolerance. Without one they give what the operations on
matrices give.
-/

namespace PivotedLU

variable {α : Type} [Scalar α] {n k : Nat} {T : Nat → Nat → α} {s t : Store α} {w x v : Window}

/-! ## Operations -/

section

variable [Scalar.Ordered α] {A : Matrix (Fin n) (Fin n) α} {b : Fin n → α}
  {o : Except Nat (Answers α)} (ho : Answered 0 A b o) (hzero : Scalar.atMost (0 : α) 0 = true)
  (hfits : Fits n n) (hw : w.Holds s n (entryAt A))

include ho hzero hfits hw

theorem Answered.flatEliminate (name : Routine) :
    ∃ r t, Flat.eliminate name (some w) (Int64.ofNat n) s = (r, t) ∧
      r.Says (o.map (·.factors.order)) ∧ s.ChangedOnly (w.take (n * n)).Covers t ∧
      ∀ a, o = .ok a → w.Holds t n fun r c => cellAt a.factors.lu (r * n + c) := by
  obtain ⟨r, t, he, hr, hkept, hholds⟩ := ho.eliminate hzero hw
  refine ⟨r.within (.routine name), t, ?_, hr.within _, hkept, hholds⟩
  rw [Flat.eliminate_eq name hfits hw.room, he]

theorem Answered.flatDecompose (hlength : w.length = n * n) :
    (afterwards (Flat.decompose (some w) (Int64.ofNat n) s) fun order t =>
      (⟨n, w.contents t, order⟩ : Factors α)).Says (o.map (·.factors)) := by
  obtain ⟨r, t, he, hr, -, hholds⟩ := ho.flatEliminate hzero hfits hw .flatDecompose
  rw [Flat.decompose, he]
  cases o with
  | ok a =>
      obtain ⟨π, k, hf⟩ := ho.factored
      have hr : r = .ok a.factors.order := hr
      rw [hr]
      show Except.ok (Factors.mk n (w.contents t) a.factors.order) = .ok a.factors
      rw [(hholds a rfl).contents_eq hlength hf.size, ← hf.dim]
  | error c => exact hr.map _

theorem Answered.flatDeterminant :
    (Flat.determinant (some w) (Int64.ofNat n) s).1.Says (o.map (·.determinant)) := by
  obtain ⟨r, t, he, hr, -, hholds⟩ := ho.flatEliminate hzero hfits hw .flatDeterminant
  rw [Flat.determinant, he]
  cases o with
  | ok a =>
      have hr : r = .ok a.factors.order := hr
      rw [hr, Int64.toNatClampNeg_ofNat_of_lt hfits.rows_lt]
      exact congrArg Result.ofFaulty (Answers.Hold.determinant_window ho (hholds a rfl))
  | error c =>
      obtain ⟨path, rfl⟩ := hr
      exact ⟨path, rfl⟩

theorem Answered.flatInverse (hx : x.Inside s) (hlength : x.length = n * n)
    (hapart : x.overlaps (w.take (n * n)) = false) :
    (afterwards (Flat.inverse (some w) (some x) (Int64.ofNat n) s) fun _ t => x.contents t).Says
      (o.map (·.inverse.data)) := by
  obtain ⟨r, t, he, hr, hkept, hholds⟩ := ho.flatEliminate hzero hfits hw .flatInverse
  have htake : x.take (n * n) = x := hlength ▸ x.take_length
  have hcheck : Flat.checkInverse (some w) (some x) (Int64.ofNat n) = .ok (w, x) := by
    refine Flat.checkInverse_apart hfits hw.room (Nat.le_of_eq hlength.symm) ?_
    rw [Flat.area_eq hfits, Flat.area_eq hfits, htake, ← Window.overlaps_iff, hapart]
    exact Bool.false_ne_true
  simp only [Flat.inverse, hcheck, he]
  cases o with
  | ok a =>
      have hr : r = .ok a.factors.order := hr
      obtain ⟨u, hu, -, hinverse⟩ := Answers.Hold.invert_window ho (hholds a rfl)
        (hx.of_changedOnly hkept) (Nat.le_of_eq hlength.symm) (htake ▸ hapart)
      rw [hr, Int64.toNatClampNeg_ofNat_of_lt hfits.rows_lt]
      show afterwards (t.commit (Kernel.invert w.cells.read a.factors.order n x.cells t))
        (fun _ t => x.contents t) = .ok a.inverse.data
      rw [hu, ← hinverse.contents_eq hlength ho.size_inverse]
      rfl
  | error c =>
      obtain ⟨path, rfl⟩ := hr
      exact ⟨path, rfl⟩

/-- Factors left in a buffer solve for a right-hand side elsewhere. -/
theorem Answered.flatSolve (hv : v.Inside s) (hrhs : v.contents s = Array.ofFn b)
    (hapart : (w.take (n * n)).overlaps v = false) :
    ((Flat.decompose (some w) (Int64.ofNat n) s).1 >>= fun order =>
      Flat.solve (some w) (some order) (some v) (Int64.ofNat n)
        (Flat.decompose (some w) (Int64.ofNat n) s).2).Says (o.map (·.solution)) := by
  obtain ⟨r, t, he, hr, hkept, hholds⟩ := ho.flatEliminate hzero hfits hw .flatDecompose
  rw [Flat.decompose, he]
  refine hr.bind fun a ha => ?_
  have ho := ho.hold ha
  have hw' := hholds a ha
  obtain ⟨π, k, hf⟩ := ho.factored
  have hvlength := Window.length_of_contents hv hrhs
  have hvalid := hfits.isValid_of_records hf.order hf.table.exchanges_le
  have hcheck := Flat.checkSolve_eq hfits hw.room hf.order.size hvalid (Nat.le_of_eq hvlength.symm)
  have hblank : n ≤ (Array.replicate n (0 : α)).size := by simp
  have hread : ∀ u : Array α, ChangedOnly (· < n) (Array.replicate n 0) u → ∀ i < n,
      v.reader t u i = .ok (cellAt (Array.ofFn b) i) := by
    intro u _ i hi
    rw [← hvlength] at hi
    rw [← hrhs, Window.cellAt_contents hv hi]
    exact Window.read_of_apart hv hapart hkept hi
  obtain ⟨u, hu, hkept, hcells⟩ := hf.solve_on ho.solution (Cells.array_lawful hblank)
    (a := w.reader t) (fun _ hr hc => hw'.read hr hc) hread (ChangedOnly.refl _ _)
  have hsize : u.size = n := by simpa using hkept.size
  obtain rfl : u = a.solution :=
    eq_of_cellAt (hsize.trans ho.size_solution.symm) fun i hi => hcells i (hsize ▸ hi)
  simp only [Flat.solve, hcheck, Int64.toNatClampNeg_ofNat_of_lt hfits.rows_lt, bind, Except.bind, hu]
  rfl

end

end PivotedLU
