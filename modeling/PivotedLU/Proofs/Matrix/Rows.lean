import PivotedLU.Proofs.Matrix.Filled

/-!
# Matrices built from rows

Rows of one length become a matrix with their entries, if those are finite; the lengths are looked
at before the entries.
-/

namespace PivotedLU.Dense

variable {α : Type} {rows : List (List α)} {c : Nat}

/-! ## Joining -/

theorem joinRows_eq (h : ∀ row ∈ rows, row.length = c) (i : Nat) (joined : Array α) :
    joinRows c i (rows.map List.toArray) joined = .ok (joined ++ rows.flatten.toArray) := by
  induction rows generalizing i joined with
  | nil => simp [joinRows]
  | cons row rows ih =>
      have hrow : row.toArray.size = c := h row List.mem_cons_self
      rw [List.map_cons, joinRows, if_neg (not_not.mpr hrow),
        ih fun row hmem => h row (List.mem_cons_of_mem _ hmem)]
      simp

theorem joinRows_ragged (h : ∃ row ∈ rows, row.length ≠ c) (i : Nat) (joined : Array α) :
    (joinRows c i (rows.map List.toArray) joined).FailsWith .dimensionMismatch := by
  induction rows generalizing i joined with
  | nil => simp at h
  | cons row rows ih =>
      rw [List.map_cons, joinRows]
      split
      next => exact (Result.failsWith_fail _).within _
      next hsize =>
        refine ih ?_ _ _
        obtain ⟨other, hmem, hother⟩ := h
        rcases List.mem_cons.mp hmem with rfl | hmem
        · exact absurd hother (by simpa using hsize)
        · exact ⟨other, hmem, hother⟩

theorem length_flatten (h : ∀ row ∈ rows, row.length = c) : rows.flatten.length = rows.length * c := by
  induction rows with
  | nil => simp
  | cons row rows ih =>
      rw [List.flatten_cons, List.length_append, h row List.mem_cons_self,
        ih fun row hmem => h row (List.mem_cons_of_mem _ hmem), List.length_cons, Nat.succ_mul,
        Nat.add_comm]

theorem getElem?_flatten (h : ∀ row ∈ rows, row.length = c) {i j : Nat} {row : List α} (hj : j < c)
    (hrow : rows[i]? = some row) : rows.flatten[i * c + j]? = row[j]? := by
  induction rows generalizing i with
  | nil => simp at hrow
  | cons first rows ih =>
      have hfirst := h first List.mem_cons_self
      rw [List.flatten_cons]
      cases i with
      | zero =>
          cases hrow
          rw [Nat.zero_mul, Nat.zero_add, List.getElem?_append_left (hfirst.symm ▸ hj)]
      | succ i =>
          have hplace : (i + 1) * c + j = first.length + (i * c + j) := by
            rw [hfirst, Nat.succ_mul]
            omega
          rw [hplace, List.getElem?_append_right (Nat.le_add_right _ _), Nat.add_sub_cancel_left]
          exact ih (fun row hmem => h row (List.mem_cons_of_mem _ hmem)) hrow

theorem exists_rows {entries : List α} {r : Nat} (h : entries.length = r * c) : ∃ rows : List (List α),
    rows.length = r ∧ (∀ row ∈ rows, row.length = c) ∧ rows.flatten = entries := by
  induction r generalizing entries with
  | zero =>
      rw [Nat.zero_mul] at h
      exact ⟨[], rfl, by simp, (List.length_eq_zero_iff.mp h).symm⟩
  | succ r ih =>
      rw [Nat.succ_mul] at h
      have hdrop : (entries.drop c).length = r * c := by
        rw [List.length_drop]
        omega
      obtain ⟨rows, rfl, hrows, hrest⟩ := ih hdrop
      refine ⟨entries.take c :: rows, rfl, ?_, ?_⟩
      · refine List.forall_mem_cons.mpr ⟨?_, hrows⟩
        rw [List.length_take]
        omega
      · rw [List.flatten_cons, hrest, List.take_append_drop]

/-! ## Building -/

section

variable [Scalar α] {first : List α}

theorem ofData_strict {r : Nat} {data : Array α} (hfits : Fits r c) (hsize : data.size = r * c) :
    ((∀ v ∈ data, Scalar.finite v = true) →
      ofData ⟨Int64.ofNat r, Int64.ofNat c⟩ data true = .ok ⟨r, c, data, true⟩) ∧
    ((∃ v ∈ data, Scalar.finite v = false) →
      (ofData ⟨Int64.ofNat r, Int64.ofNat c⟩ data true).FailsWith .notFinite) := by
  rw [ofData, hfits.isValid, if_neg (by simp), hfits.size, if_neg (not_not.mpr hsize), if_pos rfl]
  dsimp only
  rw [Int64.toNatClampNeg_ofNat_of_lt hfits.rows_lt, Int64.toNatClampNeg_ofNat_of_lt hfits.cols_lt]
  constructor
  · intro hfinite
    have hnone : data.findIdx? (fun v => !Scalar.finite v) = none := by
      rw [Array.findIdx?_eq_none_iff]
      intro v hv
      rw [hfinite v hv, Bool.not_true]
    rw [hnone]
  · rintro ⟨v, hv, hnot⟩
    cases hfind : data.findIdx? (fun v => !Scalar.finite v) with
    | none =>
        rw [Array.findIdx?_eq_none_iff] at hfind
        have := hfind v hv
        simp [hnot] at this
    | some k => exact (Result.failsWith_fail _).within _

theorem ofRows_ragged (hfits : Fits (rows.length + 1) first.length)
    (h : ∃ row ∈ rows, row.length ≠ first.length) (strict : Bool) :
    (ofRows ((first :: rows).map List.toArray) strict).FailsWith .dimensionMismatch := by
  obtain ⟨row, hmem, hrow⟩ := h
  have hjoin := joinRows_ragged ⟨row, List.mem_cons_of_mem first hmem, hrow⟩ 0 #[]
  rw [List.map_cons, ofRows]
  simp only [List.length_cons, List.length_map, List.size_toArray, hfits.isValid, Bool.not_true,
    Bool.false_eq_true, if_false]
  exact hjoin.bind _

theorem ofRows_strict (hfits : Fits (rows.length + 1) first.length)
    (h : ∀ row ∈ rows, row.length = first.length) :
    ((∀ v ∈ (first :: rows).flatten, Scalar.finite v = true) →
      ofRows ((first :: rows).map List.toArray) true =
        .ok ⟨rows.length + 1, first.length, (first :: rows).flatten.toArray, true⟩) ∧
    ((∃ v ∈ (first :: rows).flatten, Scalar.finite v = false) →
      (ofRows ((first :: rows).map List.toArray) true).FailsWith .notFinite) := by
  have hall : ∀ row ∈ first :: rows, row.length = first.length := by
    intro row hmem
    rcases List.mem_cons.mp hmem with rfl | hmem
    · rfl
    · exact h row hmem
  have hjoin := joinRows_eq hall 0 #[]
  have hsize : (first :: rows).flatten.toArray.size = (rows.length + 1) * first.length :=
    length_flatten hall
  have hdata := ofData_strict hfits hsize
  have hrows : ofRows ((first :: rows).map List.toArray) true =
      ofData ⟨Int64.ofNat (rows.length + 1), Int64.ofNat first.length⟩
        (first :: rows).flatten.toArray true := by
    rw [List.map_cons] at hjoin ⊢
    rw [ofRows]
    simp only [List.length_cons, List.length_map, List.size_toArray, hfits.isValid, Bool.not_true,
      Bool.false_eq_true, if_false, hjoin, Array.empty_append]
    rfl
  rw [hrows]
  simpa only [List.mem_toArray] using hdata

end

/-! ## Entries -/

theorem get_ofNat {d : Dense α} {i j : Nat} {v : α} (hi : i < d.rows) (hj : j < d.cols)
    (hfits : Fits d.rows d.cols) (hv : d.data[i * d.cols + j]? = some v) :
    d.get (Int64.ofNat i) (Int64.ofNat j) = .ok v := by
  have hi' : i < 2 ^ 63 := Nat.lt_trans hi hfits.rows_lt
  have hj' : j < 2 ^ 63 := Nat.lt_trans hj hfits.cols_lt
  obtain ⟨hlt, hv⟩ := Array.getElem?_eq_some_iff.mp hv
  have hplace : offset? d.rows d.cols (Int64.ofNat i) (Int64.ofNat j) = some (i * d.cols + j) := by
    rw [offset?, Int64.toInt_ofNat_of_lt hi', Int64.toInt_ofNat_of_lt hj',
      Int64.toNatClampNeg_ofNat_of_lt hi', Int64.toNatClampNeg_ofNat_of_lt hj', if_pos]
    have hzero : (0 : Int64) = Int64.ofNat 0 := rfl
    rw [hzero, Int64.ofNat_le_iff_le (by decide) hi', Int64.ofNat_le_iff_le (by decide) hj']
    omega
  have hread : Cells.array.read d.data (i * d.cols + j) = .ok v := by
    rw [← hv]
    exact dif_pos hlt
  simp only [get, locate, hplace, bind, Except.bind, hread, Result.ofFaulty]

end PivotedLU.Dense
