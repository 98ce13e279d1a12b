import Mathlib.LinearAlgebra.Matrix.Permutation
import PivotedLU.Factors
import PivotedLU.Proofs.Elimination.Exact
import PivotedLU.Proofs.Matrix.View

/-!
# The factors as matrices

The accessors of a factorization write one table each into zeros. `WrittenTo` is the invariant of
their loops.
-/

namespace PivotedLU.Factors

variable {α : Type} [Scalar α] {n i j : Nat} {T : Nat → Nat → α} {data : Array α}

/-- The table `T` is written before place `(i, j)`, and zeros stand from there on. -/
structure WrittenTo (n i j : Nat) (T : Nat → Nat → α) (data : Array α) : Prop where
  size : data.size = n * n
  cell : ∀ r < n, ∀ c < n,
    cellAt data (r * n + c) = if r < i ∨ r = i ∧ c < j then T r c else 0

theorem writtenTo_blank (n : Nat) (T : Nat → Nat → α) : WrittenTo n 0 0 T (blank n) := by
  refine ⟨by simp [blank], fun r hr c hc => ?_⟩
  simp [cellAt, blank, place_lt hr hc]

theorem WrittenTo.write (h : WrittenTo n i j T data) (hi : i < n) (hj : j < n) :
    ∃ data', Cells.array.write data (i * n + j) (T i j) = .ok data' ∧ WrittenTo n i (j + 1) T data' := by
  obtain ⟨data', hw, hkept, hget⟩ := (Cells.array_lawful (Nat.le_of_eq h.size.symm)).write
    (ChangedOnly.refl _ data) (place_lt hi hj) (T i j)
  refine ⟨data', hw, hkept.size.trans h.size, fun r hr c hc => ?_⟩
  rw [hget, update_place hj hc, h.cell r hr c hc]
  by_cases hplace : r = i ∧ c = j
  · obtain ⟨rfl, rfl⟩ := hplace
    simp
  · have hiff : (r < i ∨ r = i ∧ c < j) ↔ (r < i ∨ r = i ∧ c < j + 1) := by omega
    simp only [hplace, if_false, hiff]

/-- Places where the table is zero need no write. -/
theorem WrittenTo.skip {k : Nat} (h : WrittenTo n i j T data) (hjk : j ≤ k)
    (hzero : ∀ c, j ≤ c → c < k → T i c = 0) : WrittenTo n i k T data := by
  refine ⟨h.size, fun r hr c hc => ?_⟩
  rw [h.cell r hr c hc]
  split
  next hbefore => rw [if_pos (by omega)]
  next hnot =>
    split
    next hpassed =>
      obtain ⟨rfl, hck⟩ : r = i ∧ c < k := by omega
      rw [hzero c (by omega) hck]
    next => rfl

theorem WrittenTo.nextRow (h : WrittenTo n i n T data) : WrittenTo n (i + 1) 0 T data := by
  refine ⟨h.size, fun r hr c hc => ?_⟩
  have hiff : (r < i ∨ r = i ∧ c < n) ↔ (r < i + 1 ∨ r = i + 1 ∧ c < 0) := by omega
  rw [h.cell r hr c hc]
  simp only [hiff]

theorem shows_square (hfits : Fits n n) (T : Nat → Nat → α) {A : Matrix (Fin n) (Fin n) α}
    (hA : ∀ i j : Fin n, T i j = A i j) {x : Except Fault (Array α)}
    (h : ∃ data, x = .ok data ∧ WrittenTo n n 0 T data) :
    ∃ d, (do let data ← x; return square n data) = .ok d ∧ d.Shows A := by
  obtain ⟨data, rfl, hdata⟩ := h
  refine ⟨square n data, rfl, hfits, rfl, rfl, .of_cellAt hdata.size fun i j => ?_⟩
  have hcell := hdata.cell i i.isLt j j.isLt
  rw [if_pos (Or.inl i.isLt), hA] at hcell
  exact hcell

/-! ## The accessors -/

variable {lu : Array α}

theorem read_lu (hlu : lu.size = n * n) (hi : i < n) (hj : j < n) :
    Cells.array.read lu (i * n + j) = .ok (cellAt lu (i * n + j)) :=
  (Cells.array_lawful (Nat.le_of_eq hlu.symm)).read (ChangedOnly.refl _ lu) (place_lt hi hj)

/-- The unit lower factor held in a block. -/
def lowerMatrix (n : Nat) (lu : Array α) : Matrix (Fin n) (Fin n) α :=
  Matrix.of fun i j => Kernel.lowerPart (fun r c => cellAt lu (r * n + c)) i j

/-- The upper factor held in a block. -/
def upperMatrix (n : Nat) (lu : Array α) : Matrix (Fin n) (Fin n) α :=
  Matrix.of fun i j => Kernel.upperPart (fun r c => cellAt lu (r * n + c)) i j

theorem lowerMatrix_self (i : Fin n) : lowerMatrix n lu i i = 1 := by
  simp [lowerMatrix, Kernel.lowerPart]

theorem lowerMatrix_of_lt {i j : Fin n} (h : i < j) : lowerMatrix n lu i j = 0 := by
  rw [lowerMatrix, Matrix.of_apply, Kernel.lowerPart, if_neg (by omega), if_neg (by omega)]

theorem upperMatrix_of_lt {i j : Fin n} (h : j < i) : upperMatrix n lu i j = 0 := by
  rw [upperMatrix, Matrix.of_apply, Kernel.upperPart, if_neg (by omega)]

theorem lower_ok (order : RowOrder) (hfits : Fits n n) (hlu : lu.size = n * n) :
    ∃ d, lower ⟨n, lu, order⟩ = .ok d ∧ d.Shows (lowerMatrix n lu) := by
  refine shows_square hfits (Kernel.lowerPart fun r c => cellAt lu (r * n + c)) (fun _ _ => rfl)
    (Loop.up_ok (fun i => WrittenTo n i 0 _) (Nat.zero_le n) (writtenTo_blank n _)
      (fun i data _ hi h => ?_) fun _ h => h)
  obtain ⟨data₁, hrow, h₁⟩ : ∃ data₁, Loop.up 0 i (fun j data => do
      let v ← Cells.array.read lu (i * n + j)
      Cells.array.write data (i * n + j) v) data = .ok data₁ ∧ WrittenTo n i i
        (Kernel.lowerPart fun r c => cellAt lu (r * n + c)) data₁ := by
    refine Loop.up_ok (fun j => WrittenTo n i j _) (Nat.zero_le i) h (fun j data _ hji h => ?_)
      fun _ h => h
    obtain ⟨data', hw, h'⟩ := h.write hi (Nat.lt_trans hji hi)
    refine ⟨data', ?_, h'⟩
    rw [read_lu hlu hi (Nat.lt_trans hji hi), ← hw, Kernel.lowerPart, if_pos hji]
    rfl
  obtain ⟨data₂, hw, h₂⟩ := h₁.write hi hi
  refine ⟨data₂, ?_, (h₂.skip hi fun c hc _ => ?_).nextRow⟩
  · rw [hrow, ← hw, Kernel.lowerPart, if_neg (Nat.lt_irrefl i), if_pos rfl]
    rfl
  · rw [Kernel.lowerPart, if_neg (by omega), if_neg (by omega)]

theorem upper_ok (order : RowOrder) (hfits : Fits n n) (hlu : lu.size = n * n) :
    ∃ d, upper ⟨n, lu, order⟩ = .ok d ∧ d.Shows (upperMatrix n lu) := by
  refine shows_square hfits (Kernel.upperPart fun r c => cellAt lu (r * n + c)) (fun _ _ => rfl)
    (Loop.up_ok (fun i => WrittenTo n i 0 _) (Nat.zero_le n) (writtenTo_blank n _)
      (fun i data _ hi h => ?_) fun _ h => h)
  have hbefore : WrittenTo n i i (Kernel.upperPart fun r c => cellAt lu (r * n + c)) data :=
    h.skip (Nat.zero_le i) fun c _ hci => by rw [Kernel.upperPart, if_neg (by omega)]
  refine Loop.up_ok (fun j => WrittenTo n i j _) (Nat.le_of_lt hi) hbefore (fun j data hij hj h => ?_)
    fun _ h => h.nextRow
  obtain ⟨data', hw, h'⟩ := h.write hi hj
  refine ⟨data', ?_, h'⟩
  rw [read_lu hlu hi hj, ← hw, Kernel.upperPart, if_pos hij]
  rfl

omit [Scalar α] in
theorem permMatrix_entry [Zero α] [One α] (π : Equiv.Perm (Fin n)) (i j : Fin n) :
    π.permMatrix α i j = if π i = j then 1 else 0 := by
  simp [PEquiv.toMatrix_apply, eq_comm]

theorem permMatrix_eq_one_iff {K : Type} [Field K] {π : Equiv.Perm (Fin n)} {i j : Fin n} :
    π.permMatrix K i j = 1 ↔ π i = j := by
  rw [permMatrix_entry]
  split
  next h => exact iff_of_true rfl h
  next h => exact iff_of_false zero_ne_one h

theorem permutation_ok (lu : Array α) (hfits : Fits n n) {order : RowOrder}
    {π : Equiv.Perm (Fin n)} {k : Nat} (horder : order.Records π k) :
    ∃ d, permutation ⟨n, lu, order⟩ = .ok d ∧ d.Shows (π.permMatrix α) := by
  refine shows_square hfits (entryAt (π.permMatrix α)) (entryAt_val _)
    (Loop.up_ok (fun i => WrittenTo n i 0 _) (Nat.zero_le n) (writtenTo_blank n _)
      (fun i data _ hi h => ?_) fun _ h => h)
  have hentry : ∀ c (hc : c < n), entryAt (π.permMatrix α) i c =
      if π ⟨i, hi⟩ = ⟨c, hc⟩ then 1 else 0 := fun c hc =>
    (entryAt_val _ ⟨i, hi⟩ ⟨c, hc⟩).trans (permMatrix_entry π _ _)
  obtain ⟨t, ht⟩ : ∃ t, t = π ⟨i, hi⟩ := ⟨_, rfl⟩
  have hplace : i * n + t < 2 ^ 63 := Nat.lt_trans (place_lt hi t.isLt) hfits.size_lt
  have hword : Int64.ofNat (i * n) + Int64.ofNat t = Int64.ofNat (i * n + t) := (Int64.ofNat_add _ _).symm
  have hnonneg : ¬ Int64.ofNat (i * n + t) < 0 := Int64.not_lt.mpr (Int64.zero_le_ofNat_of_lt hplace)
  obtain ⟨data', hw, h'⟩ := (h.skip (Nat.zero_le t) fun c _ hct => by
    rw [hentry c (by omega), if_neg (by rw [← ht, Fin.ext_iff]; exact Nat.ne_of_gt hct)]).write hi t.isLt
  refine ⟨data', ?_, (h'.skip t.isLt fun c htc hcn => ?_).nextRow⟩
  · simp only [horder.entry ⟨i, hi⟩, bind, Except.bind, ← ht, hword, hnonneg, if_false,
      Int64.toNatClampNeg_ofNat_of_lt hplace]
    rw [← hw, hentry t t.isLt, if_pos ht.symm]
  · rw [hentry c hcn, if_neg (by rw [← ht, Fin.ext_iff]; exact Nat.ne_of_lt htc)]

end PivotedLU.Factors
