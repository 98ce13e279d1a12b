import PivotedLU.Proofs.Bounds
import PivotedLU.Proofs.Factors.Determinant
import PivotedLU.Proofs.Flat.Checks
import PivotedLU.Proofs.Stored.Answers

/-!
# Flat buffers never fault

Every operation on flat buffers gives a result for all arguments. It computes exactly when the
checks accept them; after that no kernel asks for a cell that is not there.
-/

namespace PivotedLU.Flat

variable {α : Type} [Scalar α] {n : Nat} {m : Int64} {s t : Store α} {w : Window}

/-- A slice of a store: none at all, or a window whose cells are all there. -/
def Slice (s : Store α) : Type :=
  { w : Option Window // ∀ v ∈ w, v.Inside s }

/-! ## Elimination -/

/-- Elimination goes through, with a record that belongs to the factors, or finds a singular
matrix. -/
theorem eliminate_cases (name : Routine) (hfits : Fits n n) (hin : w.Inside s)
    (hroom : n * n ≤ w.length) :
    (∃ p t, ∃ (π : Equiv.Perm (Fin n)) (k : Nat),
      eliminate name (some w) (Int64.ofNat n) s = (.ok p, t) ∧
      s.ChangedOnly (w.take (n * n)).Covers t ∧ p.Records π k) ∨
    ∃ path t, eliminate name (some w) (Int64.ofNat n) s = (.error (.error ⟨path, .singular⟩), t) := by
  rw [eliminate_eq name hfits hroom]
  obtain ⟨e, π, k, hend, hkept, ⟨-, he⟩ | ⟨-, column, he⟩⟩ := w.eliminate_cases hin hroom 0
  · rw [he]
    exact .inl ⟨e.order, e.state, π, k, rfl, hkept, hend.order⟩
  · rw [he]
    exact .inr ⟨[.routine name, .column (column.elim (-1) Int.ofNat)], e.state, rfl⟩

/-! ## Operations -/

theorem decompose_settled (a : Slice s) : (decompose a.val m s).1.Settled (Room m a.val) where
  computed h := by
    obtain ⟨n, w, rfl, hfits, ha, hroom⟩ := h.exists_ofNat
    rw [ha, decompose]
    obtain ⟨p, t, π, k, he, -⟩ | ⟨path, t, he⟩ :=
      eliminate_cases .flatDecompose hfits (a.property w ha) hroom
    · exact .inl ⟨p, by rw [he]⟩
    · exact .inr ⟨path, by rw [he]⟩
  rejected h := by
    obtain ⟨e, he, hcause⟩ := eliminate_rejected .flatDecompose h s
    exact ⟨e, by rw [decompose, he], hcause⟩

theorem determinant_settled (a : Slice s) : (determinant a.val m s).1.Settled (Room m a.val) where
  computed h := by
    obtain ⟨n, w, rfl, hfits, ha, hroom⟩ := h.exists_ofNat
    have hin := a.property w ha
    rw [ha, determinant]
    obtain ⟨p, t, π, k, he, hkept, hp⟩ | ⟨path, t, he⟩ :=
      eliminate_cases .flatDeterminant hfits hin hroom
    · rw [he]
      have hread := w.readable (hin.of_changedOnly hkept) hroom w.Covers
      obtain ⟨v, hv⟩ := Kernel.determinant_bounds hfits.rows_pos hread (.refl _ t) hp
      refine .inl ⟨v, ?_⟩
      simp only [Option.getD_some, Int64.toNatClampNeg_ofNat_of_lt hfits.rows_lt, hv, Result.ofFaulty]
    · exact .inr ⟨path, by rw [he]⟩
  rejected h := by
    obtain ⟨e, he, hcause⟩ := eliminate_rejected .flatDeterminant h s
    exact ⟨e, by rw [determinant, he], hcause⟩

theorem solve_settled (a b : Slice s) (p : Option RowOrder) :
    (solve a.val p b.val m s).Settled (Solvable m a.val p b.val) where
  computed h := by
    obtain ⟨n, w, q, v, rfl, hfits, ha, hroom, hp, hsize, hvalid, hb, hlength⟩ := h.exists_ofNat
    obtain ⟨n', k, π, -, -, hrecords⟩ := RowOrder.exists_records hvalid
    obtain rfl : n' = n := Nat.succ.inj (hrecords.size.symm.trans hsize)
    have hout : n' ≤ (Array.replicate n' (0 : α)).size := by simp
    obtain ⟨u, hu, -⟩ := Kernel.solve_bounds (w.reader_readable (a.property w ha) hroom _)
      (v.reader_readable (b.property v hb) hlength _) hrecords hfits.rows_lt
      (Cells.array_lawful hout).usable (.refl _ _)
    refine .inl ⟨u, ?_⟩
    rw [ha, hp, hb, solve, checkSolve_eq hfits hroom hsize hvalid hlength,
      Int64.toNatClampNeg_ofNat_of_lt hfits.rows_lt]
    exact congrArg Result.ofFaulty hu
  rejected h := (checkSolve_rejected h).bind _

theorem inverse_settled (a ia : Slice s) : (inverse a.val ia.val m s).1.Settled
    ((Room m a.val ∧ Room m ia.val) ∧ Apart m ia.val a.val) where
  computed h := by
    obtain ⟨⟨hroom, hroom'⟩, hapart⟩ := h
    obtain ⟨n, w, rfl, hfits, ha, hw⟩ := hroom.exists_ofNat
    obtain ⟨x, hia, hx⟩ := hroom'.exists_window hfits
    have hin := a.property w ha
    have hcheck := checkInverse_apart hfits hw hx (hapart x hia w ha)
    rw [ha, hia, inverse, hcheck]
    obtain ⟨p, t, π, k, he, hkept, hp⟩ | ⟨path, t, he⟩ := eliminate_cases .flatInverse hfits hin hw
    · have hread := w.readable (hin.of_changedOnly hkept) hw (x.take (n * n)).Covers
      have hwrite := (x.cells_lawful ((ia.property x hia).of_changedOnly hkept) hx).usable
      obtain ⟨u, hu, -⟩ := Kernel.invert_bounds hread hp hwrite (.refl _ t)
      refine .inl ⟨(), ?_⟩
      simp only [he, Int64.toNatClampNeg_ofNat_of_lt hfits.rows_lt, hu, Store.commit]
    · exact .inr ⟨path, by simp only [he]⟩
  rejected h := by
    have hcheck : (checkInverse a.val ia.val m).Rejected := by
      by_cases hroom : Room m a.val ∧ Room m ia.val
      · obtain ⟨n, w, rfl, hfits, ha, hw⟩ := hroom.1.exists_ofNat
        obtain ⟨x, hia, hx⟩ := hroom.2.exists_window hfits
        have hshare : (area x (Int64.ofNat n)).Shares (area w (Int64.ofNat n)) := by
          by_contra hapart
          refine h ⟨hroom, ?_⟩
          rw [ha, hia]
          exact apart_some.mpr hapart
        rw [ha, hia, checkInverse_shares hfits hw hx hshare]
        exact ⟨_, rfl, by simp⟩
      · exact checkInverse_rejected hroom
    obtain ⟨e, he, hcause⟩ := hcheck
    exact ⟨e, by rw [inverse, he], hcause⟩

theorem trace_settled (a : Slice s) : (trace a.val m s).Settled (Room m a.val) where
  computed h := by
    obtain ⟨n, w, rfl, hfits, ha, hroom⟩ := h.exists_ofNat
    have hread := w.readable (a.property w ha) hroom w.Covers
    obtain ⟨v, hv⟩ := Kernel.trace_bounds hread (.refl _ s)
    refine .inl ⟨v, ?_⟩
    rw [ha, trace, block_eq hfits hroom, Int64.toNatClampNeg_ofNat_of_lt hfits.rows_lt]
    exact congrArg Result.ofFaulty hv
  rejected h := ((block_rejected h).within _).bind _

theorem transpose_settled (a : Slice s) : (transpose a.val m s).1.Settled (Room m a.val) where
  computed h := by
    obtain ⟨n, w, rfl, hfits, ha, hroom⟩ := h.exists_ofNat
    have hwrite := (w.cells_lawful (a.property w ha) hroom).usable
    obtain ⟨t, ht, -⟩ := Kernel.transpose_bounds hwrite (.refl _ s)
    refine .inl ⟨(), ?_⟩
    rw [ha, transpose, block_eq hfits hroom, Int64.toNatClampNeg_ofNat_of_lt hfits.rows_lt]
    exact congrArg (fun r => (s.commit r).1) ht
  rejected h := by
    obtain ⟨e, he, hcause⟩ := (block_rejected h).within (.routine .flatTranspose)
    exact ⟨e, by rw [transpose, Result.of, he], hcause⟩

theorem multiply_settled (x y r : Slice s) : (multiply x.val y.val r.val m s).1.Settled
    ((Room m x.val ∧ Room m y.val ∧ Room m r.val) ∧ Apart m r.val x.val ∧ Apart m r.val y.val) where
  computed h := by
    obtain ⟨⟨hroom, hroomy, hroomr⟩, hapart, haparty⟩ := h
    obtain ⟨n, u, rfl, hfits, hu, hx⟩ := hroom.exists_ofNat
    obtain ⟨v, hv, hy⟩ := hroomy.exists_window hfits
    obtain ⟨w, hw, hr⟩ := hroomr.exists_window hfits
    have hcheck := checkMultiply_apart hfits hx hy hr (hapart w hw u hu) (haparty w hw v hv)
    have hreadx := u.readable (x.property u hu) hx (w.take (n * n)).Covers
    have hready := v.readable (y.property v hv) hy (w.take (n * n)).Covers
    have hwrite := (w.cells_lawful (r.property w hw) hr).usable
    obtain ⟨t, ht, -⟩ := Kernel.multiply_bounds hreadx hready hwrite (.refl _ s)
    refine .inl ⟨(), ?_⟩
    simp only [hu, hv, hw, multiply, hcheck, Int64.toNatClampNeg_ofNat_of_lt hfits.rows_lt, ht,
      Store.commit]
  rejected h := by
    have hcheck : (checkMultiply x.val y.val r.val m).Rejected := by
      by_cases hroom : Room m x.val ∧ Room m y.val ∧ Room m r.val
      · obtain ⟨n, u, rfl, hfits, hu, hx⟩ := hroom.1.exists_ofNat
        obtain ⟨v, hv, hy⟩ := hroom.2.1.exists_window hfits
        obtain ⟨w, hw, hr⟩ := hroom.2.2.exists_window hfits
        have hshare : (area w (Int64.ofNat n)).Shares (area u (Int64.ofNat n)) ∨
            (area w (Int64.ofNat n)).Shares (area v (Int64.ofNat n)) := by
          by_contra hapart
          obtain ⟨hapart, haparty⟩ := not_or.mp hapart
          refine h ⟨hroom, ?_⟩
          rw [hu, hv, hw]
          exact ⟨apart_some.mpr hapart, apart_some.mpr haparty⟩
        rw [hu, hv, hw, checkMultiply_shares hfits hx hy hr hshare]
        exact ⟨_, rfl, by simp⟩
      · exact checkMultiply_rejected hroom
    obtain ⟨e, he, hcause⟩ := hcheck
    exact ⟨e, by rw [multiply, he], hcause⟩

/-- Whatever the dimension, the slices and the record are, and however the slices overlap, no
operation faults. Each one computes when there is room in all of its buffers, and what else it asks
for holds; otherwise it rejects its arguments. -/
theorem operations_settled (s : Store α) (m : Int64) (a ia b x y r : Slice s) (p : Option RowOrder) :
    (decompose a.val m s).1.Settled (Room m a.val) ∧
    (solve a.val p b.val m s).Settled (Solvable m a.val p b.val) ∧
    (inverse a.val ia.val m s).1.Settled
      ((Room m a.val ∧ Room m ia.val) ∧ Apart m ia.val a.val) ∧
    (determinant a.val m s).1.Settled (Room m a.val) ∧
    (trace a.val m s).Settled (Room m a.val) ∧
    (transpose a.val m s).1.Settled (Room m a.val) ∧
    (multiply x.val y.val r.val m s).1.Settled
      ((Room m x.val ∧ Room m y.val ∧ Room m r.val) ∧ Apart m r.val x.val ∧ Apart m r.val y.val) :=
  ⟨decompose_settled a, solve_settled a b p, inverse_settled a ia, determinant_settled a,
    trace_settled a, transpose_settled a, multiply_settled x y r⟩

end PivotedLU.Flat
