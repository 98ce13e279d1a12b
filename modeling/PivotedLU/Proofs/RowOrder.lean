import Mathlib.Data.Fintype.EquivFin
import Mathlib.Data.List.FinRange
import Mathlib.GroupTheory.Perm.Basic
import Mathlib.Logic.Equiv.Basic
import PivotedLU.Proofs.Cells
import PivotedLU.RowOrder

/-!
# Row orders and permutations
-/

namespace PivotedLU.RowOrder

variable {n k : Nat} {p : RowOrder} {π : Equiv.Perm (Fin n)}

/-- The record of `k` exchanges that put row `π i` of the matrix at place `i`. -/
structure Records (p : RowOrder) (π : Equiv.Perm (Fin n)) (k : Nat) : Prop where
  size : p.entries.size = n + 1
  row : ∀ i : Fin n, p.entries[(i : Nat)]? = some (Int64.ofNat (π i))
  last : p.entries[n]? = some (Int64.ofNat (n + k))

theorem entry_eq {i : Nat} {v : Int64} (h : p.entries[i]? = some v) : p.entry i = .ok v := by
  obtain ⟨hi, hv⟩ := Array.getElem?_eq_some_iff.mp h
  simp [entry, hi, hv]

theorem Records.entry (h : p.Records π k) (i : Fin n) : p.entry i = .ok (Int64.ofNat (π i)) :=
  entry_eq (h.row i)

/-- The row that the permutation puts at a place, by number. -/
def rowAt (π : Equiv.Perm (Fin n)) (i : Nat) : Nat :=
  if h : i < n then π ⟨i, h⟩ else i

@[simp] theorem rowAt_val (π : Equiv.Perm (Fin n)) (i : Fin n) : rowAt π i = π i := by
  simp [rowAt]

theorem rowAt_lt (π : Equiv.Perm (Fin n)) {i : Nat} (hi : i < n) : rowAt π i < n :=
  rowAt_val π ⟨i, hi⟩ ▸ (π ⟨i, hi⟩).isLt

theorem Records.entry_rowAt (h : p.Records π k) {i : Nat} (hi : i < n) :
    p.entry i = .ok (Int64.ofNat (rowAt π i)) :=
  rowAt_val π ⟨i, hi⟩ ▸ h.entry ⟨i, hi⟩

theorem size_identity (n : Nat) : (identity n).entries.size = n + 1 := by
  simp [identity]

theorem records_identity (n : Nat) : (identity n).Records (1 : Equiv.Perm (Fin n)) 0 where
  size := size_identity n
  row i := by
    have hi : (i : Nat) < n + 1 := by omega
    simp [identity, hi]
  last := by simp [identity]

/-- Whatever a record of `n` rows held, it records the identity after a reset. -/
theorem records_reset (h : p.entries.size = n + 1) : p.reset.Records (1 : Equiv.Perm (Fin n)) 0 where
  size := by simpa [reset] using h
  row i := by
    have hi : (i : Nat) < p.entries.size := by omega
    simp [reset, hi]
  last := by
    have hn : n < p.entries.size := by omega
    simp [reset, hn]

theorem Records.exchange (h : p.Records π k) (i t : Fin n) :
    ∃ q, p.exchange i t = .ok q ∧ q.Records (π * Equiv.swap i t) k := by
  have hsize := h.size
  refine ⟨⟨(p.entries.setIfInBounds i (Int64.ofNat (π t))).setIfInBounds t (Int64.ofNat (π i))⟩,
    ?_, by simpa using hsize, fun j => ?_, ?_⟩
  · simp only [RowOrder.exchange, h.entry]
    rfl
  · rw [Equiv.Perm.mul_apply]
    rcases eq_or_ne j t with rfl | hjt
    · rw [Equiv.swap_apply_right]
      exact Array.getElem?_setIfInBounds_self_of_lt (by simp; omega)
    · rw [Array.getElem?_setIfInBounds_ne (by omega)]
      rcases eq_or_ne j i with rfl | hji
      · rw [Equiv.swap_apply_left]
        exact Array.getElem?_setIfInBounds_self_of_lt (by omega)
      · rw [Equiv.swap_apply_of_ne_of_ne hji hjt, Array.getElem?_setIfInBounds_ne (by omega)]
        exact h.row j
  · rw [Array.getElem?_setIfInBounds_ne (by omega), Array.getElem?_setIfInBounds_ne (by omega)]
    exact h.last

theorem Records.count (h : p.Records π k) : ∃ q, p.count n = .ok q ∧ q.Records π (k + 1) := by
  have hsize := h.size
  refine ⟨⟨p.entries.setIfInBounds n (Int64.ofNat (n + k) + 1)⟩, ?_, by simpa using hsize,
    fun j => ?_, ?_⟩
  · simp only [RowOrder.count, entry_eq h.last]
    rfl
  · rw [Array.getElem?_setIfInBounds_ne (by omega)]
    exact h.row j
  · rw [Array.getElem?_setIfInBounds_self_of_lt (by omega), ← Nat.add_assoc, Int64.ofNat_add (n + k) 1]
    rfl

/-! ## Counting exchanges -/

theorem dimension_eq (h : p.entries.size = n + 1) : p.dimension = Int64.ofNat n := by
  rw [RowOrder.dimension, h, Int64.ofNat_add]
  exact Int64.add_sub_cancel _ _

theorem Records.dimension (h : p.Records π k) : p.dimension = Int64.ofNat n :=
  dimension_eq h.size

theorem Records.back (h : p.Records π k) : p.entries.back? = some (Int64.ofNat (n + k)) := by
  rw [Array.back?, h.size]
  exact h.last

theorem Records.swaps (h : p.Records π k) : p.swaps = .ok (Int64.ofNat k) := by
  have hsub : Int64.ofNat (n + k) - Int64.ofNat n = Int64.ofNat k := by
    rw [← Int64.ofNat_sub _ _ (Nat.le_add_right n k), Nat.add_sub_cancel_left]
  simp only [RowOrder.swaps, h.back, h.dimension, hsub]

theorem Records.sign {α : Type} [Scalar α] (h : p.Records π k) (hk : k < 2 ^ 63) :
    p.sign = .ok (if k % 2 = 0 then 1 else (-1 : α)) := by
  have hparity : Int64.ofNat k % 2 = 0 ↔ k % 2 = 0 := by
    have htwo : (2 : Int64) = Int64.ofNat 2 := rfl
    have hzero : (0 : Int64) = Int64.ofNat 0 := rfl
    rw [htwo, hzero, ← Int64.ofNat_mod hk (by decide)]
    exact ofNat_inj (Nat.lt_trans (Nat.mod_lt k (by decide)) (by decide)) (by decide)
  simp only [RowOrder.sign, h.swaps, bind, Except.bind, hparity]
  rfl

/-- A record says which permutation it records and how many exchanges made it, and nothing else. -/
theorem Records.unique {q : RowOrder} (h : p.Records π k) (h' : q.Records π k) : p = q := by
  refine congrArg RowOrder.mk (Array.ext_getElem? fun i => ?_)
  rcases Nat.lt_trichotomy i n with hi | rfl | hi
  · rw [h.row ⟨i, hi⟩, h'.row ⟨i, hi⟩]
  · rw [h.last, h'.last]
  · rw [Array.getElem?_eq_none (h.size ▸ hi), Array.getElem?_eq_none (h'.size ▸ hi)]

/-! ## Validity -/

theorem distinct_eq_true (hn : n < 2 ^ 63) {rows : List Nat} {seen : Array Bool} (hnodup : rows.Nodup)
    (hrows : ∀ r ∈ rows, r < n ∧ seen[r]? = some false) :
    distinct (Int64.ofNat n) (rows.map Int64.ofNat) seen = .ok true := by
  induction rows generalizing seen with
  | nil => rfl
  | cons r rows ih =>
      obtain ⟨hr, hnew⟩ := hrows r List.mem_cons_self
      obtain ⟨hother, hnodup⟩ := List.nodup_cons.mp hnodup
      have hword : r < 2 ^ 63 := Nat.lt_trans hr hn
      have hnonneg : ¬ Int64.ofNat r < 0 := Int64.not_lt.mpr (Int64.zero_le_ofNat_of_lt hword)
      have hbelow : ¬ Int64.ofNat n ≤ Int64.ofNat r := by
        rw [Int64.ofNat_le_iff_le hn hword]
        exact Nat.not_le.mpr hr
      simp only [List.map_cons, distinct, hnonneg, hbelow, or_self, if_false,
        Int64.toNatClampNeg_ofNat_of_lt hword, hnew]
      refine ih hnodup fun r' hr' => ⟨(hrows r' (List.mem_cons_of_mem r hr')).1, ?_⟩
      have hne : r ≠ r' := fun h => hother (h ▸ hr')
      rw [Array.getElem?_setIfInBounds_ne hne]
      exact (hrows r' (List.mem_cons_of_mem r hr')).2

theorem Records.rows_eq (h : p.Records π k) :
    p.entries.pop.toList = (List.ofFn fun i => (π i : Nat)).map Int64.ofNat := by
  refine List.ext_getElem? fun i => ?_
  rw [Array.getElem?_toList, Array.getElem?_pop, h.size, Nat.add_sub_cancel]
  rcases Nat.lt_or_ge i n with hi | hi
  · rw [if_pos hi, h.row ⟨i, hi⟩]
    simp [hi]
  · rw [if_neg (Nat.not_lt.mpr hi)]
    simp [hi]

theorem Records.isValid (h : p.Records π k) (hn : 0 < n) (hk : n + k < 2 ^ 63) :
    p.isValid = .ok true := by
  have hword : n < 2 ^ 63 := by omega
  have hsize : ¬ p.entries.size < 2 := by
    rw [h.size]
    omega
  have hlast : ¬ Int64.ofNat (n + k) < Int64.ofNat n := by
    rw [Int64.ofNat_lt_iff_lt hk hword]
    omega
  simp only [RowOrder.isValid, hsize, if_false, h.back, h.dimension, hlast, h.rows_eq,
    Int64.toNatClampNeg_ofNat_of_lt hword]
  have hnodup : (List.ofFn fun i => (π i : Nat)).Nodup :=
    List.nodup_ofFn.mpr fun i j hij => π.injective (Fin.ext hij)
  refine distinct_eq_true hword hnodup fun r hr => ?_
  obtain ⟨i, rfl⟩ := List.mem_ofFn.mp hr
  exact ⟨(π i).isLt, by simp⟩

/-! ## What validity means -/

theorem exists_row {m v : Int64} (h : ¬ (v < 0 ∨ m ≤ v)) :
    ∃ r < m.toNatClampNeg, v = Int64.ofNat r ∧ v.toNatClampNeg = r := by
  obtain ⟨hnonneg, hbelow⟩ := not_or.mp h
  obtain ⟨r, hr, rfl⟩ := exists_ofNat (Int64.not_lt.mp hnonneg)
  have hle : 0 ≤ m := Int64.le_trans (Int64.not_lt.mp hnonneg) (Int64.le_of_lt (Int64.not_le.mp hbelow))
  obtain ⟨k, hk, rfl⟩ := exists_ofNat hle
  rw [Int64.toNatClampNeg_ofNat_of_lt hk, Int64.toNatClampNeg_ofNat_of_lt hr]
  rw [Int64.ofNat_le_iff_le hk hr] at hbelow
  exact ⟨r, Nat.not_le.mp hbelow, rfl, rfl⟩

/-- The scratch table has a place for every row that is looked up in it. -/
theorem distinct_ok {m : Int64} {vs : List Int64} {seen : Array Bool}
    (hseen : seen.size = m.toNatClampNeg) : ∃ b, distinct m vs seen = .ok b := by
  induction vs generalizing seen with
  | nil => exact ⟨true, rfl⟩
  | cons v vs ih =>
      simp only [distinct]
      split
      next => exact ⟨false, rfl⟩
      next hrange =>
        obtain ⟨r, hr, -, hplace⟩ := exists_row hrange
        rw [hplace, Array.getElem?_eq_getElem (hseen.symm ▸ hr)]
        cases seen[r] with
        | true => exact ⟨false, rfl⟩
        | false => exact ih (by simpa using hseen)

theorem of_distinct {m : Int64} {vs : List Int64} {seen : Array Bool}
    (h : distinct m vs seen = .ok true) : ∃ rows : List Nat, vs = rows.map Int64.ofNat ∧ rows.Nodup ∧
      ∀ r ∈ rows, r < m.toNatClampNeg ∧ seen[r]? = some false := by
  induction vs generalizing seen with
  | nil => exact ⟨[], rfl, List.nodup_nil, by simp⟩
  | cons v vs ih =>
      simp only [distinct] at h
      split at h
      next => cases h
      next hrange =>
        obtain ⟨r, hr, hv, hplace⟩ := exists_row hrange
        rw [hplace] at h
        split at h
        next => cases h
        next => cases h
        next hnew =>
          obtain ⟨rows, rfl, hnodup, hrows⟩ := ih h
          have hmarked : (seen.setIfInBounds r true)[r]? ≠ some false := by
            rw [Array.getElem?_setIfInBounds_self]
            split <;> simp
          have hother : r ∉ rows := fun hmem => hmarked (hrows r hmem).2
          refine ⟨r :: rows, by rw [hv, List.map_cons], List.nodup_cons.mpr ⟨hother, hnodup⟩, ?_⟩
          intro r' hr'
          rcases List.mem_cons.mp hr' with rfl | hr'
          · exact ⟨hr, hnew⟩
          · have hne : r ≠ r' := fun h => hother (h ▸ hr')
            obtain ⟨hlt, hfalse⟩ := hrows r' hr'
            rw [Array.getElem?_setIfInBounds_ne hne] at hfalse
            exact ⟨hlt, hfalse⟩

theorem isValid_ok (p : RowOrder) : ∃ b, p.isValid = .ok b := by
  unfold isValid
  split
  next => exact ⟨false, rfl⟩
  next hsize =>
    have hlast : p.entries.size - 1 < p.entries.size := by omega
    rw [Array.back?, Array.getElem?_eq_getElem hlast]
    dsimp only
    split
    next => exact ⟨false, rfl⟩
    next => exact distinct_ok (by simp)

/-- Different rows in range, as many as there are places, are a permutation of the places. -/
theorem exists_perm {rows : List Nat} (hnodup : rows.Nodup) (hlength : rows.length = n)
    (hrows : ∀ r ∈ rows, r < n) : ∃ π : Equiv.Perm (Fin n), rows = List.ofFn fun i => (π i : Nat) := by
  subst hlength
  have hinj : Function.Injective fun i : Fin rows.length =>
      (⟨rows.get i, hrows _ (rows.get_mem i)⟩ : Fin rows.length) := fun i j h =>
    hnodup.injective_get (Fin.mk.inj h)
  refine ⟨Equiv.ofBijective _ (Finite.injective_iff_bijective.mp hinj), ?_⟩
  exact (List.ofFn_get rows).symm

/-- A record that counts at least `n` in its last entry and has the rows of a permutation before it. -/
theorem records_of_rows {last : Int64} (hsize : p.entries.size = n + 1) (hn : n < 2 ^ 63)
    (hback : p.entries.back? = some last) (hlast : ¬ last < Int64.ofNat n)
    (hrows : p.entries.pop.toList = (List.ofFn fun i => (π i : Nat)).map Int64.ofNat) :
    ∃ k, n + k < 2 ^ 63 ∧ p.Records π k := by
  have hle := Int64.not_lt.mp hlast
  obtain ⟨m, hm, rfl⟩ := exists_ofNat (Int64.le_trans (Int64.zero_le_ofNat_of_lt hn) hle)
  rw [Int64.ofNat_le_iff_le hn hm] at hle
  obtain ⟨k, rfl⟩ := Nat.exists_eq_add_of_le hle
  refine ⟨k, hm, hsize, fun i => ?_, ?_⟩
  · have hi : (p.entries.pop.toList)[(i : Nat)]? = some (Int64.ofNat (π i)) := by
      rw [hrows]
      simp
    rw [Array.getElem?_toList, Array.getElem?_pop, if_pos (by omega)] at hi
    exact hi
  · rw [Array.back?, hsize] at hback
    exact hback

/-- The valid records are those of permutations, with a count of exchanges. -/
theorem exists_records (h : p.isValid = .ok true) : ∃ (n k : Nat) (π : Equiv.Perm (Fin n)),
    0 < n ∧ n + k < 2 ^ 63 ∧ p.Records π k := by
  unfold isValid at h
  split at h
  next => cases h
  next hsize =>
    obtain ⟨n, hsize⟩ : ∃ n, p.entries.size = n + 1 := ⟨p.entries.size - 1, by omega⟩
    split at h
    next => cases h
    next last hback =>
      split at h
      next => cases h
      next hlast =>
        obtain ⟨rows, heq, hnodup, hrows⟩ := of_distinct h
        rw [dimension_eq hsize] at hlast hrows
        have hlength : rows.length = n := by
          rw [← List.length_map Int64.ofNat, ← heq]
          simp [hsize]
        -- There are as many rows as the dimension allows, so the dimension is not a wrapped number.
        have hle : n ≤ (Int64.ofNat n).toNatClampNeg := by
          have hsub : rows ⊆ List.range (Int64.ofNat n).toNatClampNeg := fun r hr =>
            List.mem_range.mpr (hrows r hr).1
          simpa [hlength] using (hnodup.subperm hsub).length_le
        have hn : n < 2 ^ 63 := Nat.lt_of_le_of_lt hle (Int64.toNatClampNeg_lt _)
        rw [Int64.toNatClampNeg_ofNat_of_lt hn] at hrows
        obtain ⟨π, hπ⟩ := exists_perm hnodup hlength fun r hr => (hrows r hr).1
        obtain ⟨k, hk, hrec⟩ := records_of_rows hsize hn hback hlast (hπ ▸ heq)
        exact ⟨n, k, π, by omega, hk, hrec⟩

/-! ## Validity in numbers -/

/-- Entry `i` as an integer; zero beyond the end. -/
def number (p : RowOrder) (i : Nat) : Int :=
  (p.entries.getD i 0).toInt

/-- At least one row, the rows a bijection of `0, …, n - 1` onto itself, and an entry of at least
`n` after them. -/
structure Permutes (p : RowOrder) (n : Nat) : Prop where
  size : p.entries.size = n + 1
  pos : 0 < n
  rows : Set.BijOn p.number {i | i < n} {v | 0 ≤ v ∧ v < n}
  last : n ≤ p.number n

theorem number_eq_iff {i v : Nat} (hi : i < p.entries.size) (hv : v < 2 ^ 63) :
    p.number i = v ↔ p.entries[i]? = some (Int64.ofNat v) := by
  rw [Array.getElem?_eq_getElem hi, Option.some_inj, ← Int64.toInt_inj, Int64.toInt_ofNat_of_lt hv]
  simp [number, hi]

theorem Records.permutes (h : p.Records π k) (hn : 0 < n) (hk : n + k < 2 ^ 63) : p.Permutes n := by
  have hsize := h.size
  have hrow (i : Fin n) : p.number i = (π i : Nat) :=
    (number_eq_iff (by omega) (by omega)).mpr (h.row i)
  refine ⟨hsize, hn, ⟨?maps, ?injective, ?surjective⟩, ?last⟩
  case maps =>
    intro i hi
    have hvalue : p.number i = (π ⟨i, hi⟩ : Nat) := hrow ⟨i, hi⟩
    exact ⟨by omega, by omega⟩
  case injective =>
    intro i hi j hj hij
    have hvalues : ((π ⟨i, hi⟩ : Nat) : Int) = (π ⟨j, hj⟩ : Nat) :=
      (hrow ⟨i, hi⟩).symm.trans (hij.trans (hrow ⟨j, hj⟩))
    exact Fin.mk.inj (π.injective (Fin.ext (Int.ofNat_inj.mp hvalues)))
  case surjective =>
    rintro v ⟨hnonneg, hlt⟩
    have hv : v.toNat < n := by omega
    refine ⟨π.symm ⟨v.toNat, hv⟩, Fin.isLt _, ?_⟩
    rw [hrow, Equiv.apply_symm_apply]
    exact Int.toNat_of_nonneg hnonneg
  case last =>
    have hlast := (number_eq_iff (by omega) hk).mpr h.last
    omega

theorem Permutes.exists_records (h : p.Permutes n) :
    ∃ (k : Nat) (π : Equiv.Perm (Fin n)), n + k < 2 ^ 63 ∧ p.Records π k := by
  have hsize := h.size
  have hlast := h.last
  -- The number of rows is at most the last entry, a word, so no row number wraps.
  have hword : p.number n < 2 ^ 63 := Int64.toInt_lt _
  have hrow (i : Fin n) : ∃ r : Fin n, p.number i = (r : Nat) := by
    obtain ⟨hnonneg, hlt⟩ := h.rows.mapsTo i.isLt
    exact ⟨⟨(p.number i).toNat, by omega⟩, (Int.toNat_of_nonneg hnonneg).symm⟩
  choose f hf using hrow
  have hinj : Function.Injective f := fun i j hij =>
    Fin.ext (h.rows.injOn i.isLt j.isLt (by rw [hf, hf, hij]))
  obtain ⟨k, hk⟩ : ∃ k : Nat, p.number n = (n + k : Nat) := ⟨(p.number n - n).toNat, by omega⟩
  refine ⟨k, Equiv.ofBijective f (Finite.injective_iff_bijective.mp hinj), by omega, hsize, ?_, ?_⟩
  · exact fun i => (number_eq_iff (by omega) (by omega)).mp (hf i)
  · exact (number_eq_iff (by omega) (by omega)).mp hk

/-- The check answers on every list of words, and accepts exactly the permutations. -/
theorem isValid_decides_permutes (p : RowOrder) :
    ∃ valid, p.isValid = .ok valid ∧ (valid = true ↔ ∃ n, p.Permutes n) := by
  obtain ⟨valid, hvalid⟩ := p.isValid_ok
  refine ⟨valid, hvalid, ?accepted, ?permutes⟩
  case accepted =>
    rintro rfl
    obtain ⟨n, k, π, hn, hk, hrec⟩ := exists_records hvalid
    exact ⟨n, hrec.permutes hn hk⟩
  case permutes =>
    rintro ⟨n, hperm⟩
    obtain ⟨k, π, hk, hrec⟩ := hperm.exists_records
    have htrue := hrec.isValid hperm.pos hk
    rw [hvalid] at htrue
    exact Except.ok.inj htrue

example : isValid ⟨#[1, 0, 3]⟩ = .ok true := by decide

example : isValid ⟨#[0, 0, 2]⟩ = .ok false := by decide

end PivotedLU.RowOrder
