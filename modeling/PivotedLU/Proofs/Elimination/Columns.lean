import PivotedLU.Kernel.Elimination
import PivotedLU.Proofs.Cells
import PivotedLU.Proofs.Loop
import PivotedLU.Proofs.RowOrder

/-!
# Elimination on tables

What elimination does to the cells of a block, said on the table of their contents: `bestPivot`
chooses a row, the row is exchanged, `cleared` is the rest of the column. `Eliminated` are the
tables that can be reached in this way, and `decompose_ok` says that the kernel reaches one and
never leaves the block.
-/

namespace PivotedLU.Kernel

variable {σ α : Type} [Scalar α] {a : Cells σ α} {n : Nat} {ok : σ → Prop} {get : σ → Nat → α}

/-! ## Choosing a pivot -/

/-- Keeps the better of a candidate and the entry of row `k`. -/
def scan (column : Nat → α) (best : Pivot α) (k : Nat) : Pivot α :=
  if Scalar.less best.size (Scalar.magnitude (column k)) then ⟨Scalar.magnitude (column k), k⟩
  else best

/-- The candidate that is left after the rows `i`, …, `n - 1`. -/
def bestPivot (n i : Nat) (column : Nat → α) : Pivot α :=
  (List.range' i (n - i)).foldl (scan column) ⟨0, i⟩

theorem pivot_eq (ha : a.Lawful (n * n) ok get) {s : σ} (hs : ok s) {i : Nat} (hi : i < n) :
    pivot a.read n i s = .ok (bestPivot n i fun k => get s (k * n + i)) := by
  refine Loop.up_eq_foldl (scan _) (fun k best _ hk => ?_) _
  rw [ha.read hs (place_lt hk hi)]
  rfl

/-- A pivot is an entry on or below the diagonal, or no entry has beaten zero. -/
theorem bestPivot_cases {i : Nat} (hi : i < n) (column : Nat → α) :
    i ≤ (bestPivot n i column).row ∧ (bestPivot n i column).row < n ∧
      ((bestPivot n i column).size = Scalar.magnitude (column (bestPivot n i column).row) ∨
        bestPivot n i column = ⟨0, i⟩) := by
  refine List.foldlRecOn
    (motive := fun best : Pivot α => i ≤ best.row ∧ best.row < n ∧
      (best.size = Scalar.magnitude (column best.row) ∨ best = ⟨0, i⟩))
    _ _ ⟨Nat.le_refl _, hi, Or.inr rfl⟩ fun best hbest k hk => ?_
  have hk := List.mem_range'_1.mp hk
  unfold scan
  split
  · exact ⟨hk.1, show k < n by omega, Or.inl rfl⟩
  · exact hbest

theorem le_of_row_bestPivot {i t : Nat} {column : Nat → α} (hi : i < n)
    (ht : (bestPivot n i column).row = t) : i ≤ t :=
  ht ▸ (bestPivot_cases hi column).1

/-! ## Exchanging rows -/

omit [Scalar α] in
theorem exchangeRows_ok (ha : a.Lawful (n * n) ok get) {s : σ} (hs : ok s) {r t : Nat} (hr : r < n)
    (ht : t < n) :
    ∃ s', exchangeRows a n r t s = .ok s' ∧ ok s' ∧
      ∀ i < n, ∀ j < n, get s' (i * n + j) = get s (Equiv.swap r t i * n + j) := by
  -- The columns before `c` are exchanged, the others not yet.
  refine Loop.up_ok (fun c s' => ok s' ∧ ∀ i < n, ∀ j < n,
      get s' (i * n + j) = get s ((if j < c then Equiv.swap r t i else i) * n + j))
    (Nat.zero_le _) ⟨hs, fun i _ j _ => by simp⟩ ?_ ?_
  · rintro c s₁ - hc ⟨hs₁, hget⟩
    obtain ⟨s₂, hrun, hs₂, hget₂⟩ := ha.exchange hs₁ (place_lt hr hc) (place_lt ht hc)
    refine ⟨s₂, hrun, hs₂, fun i hi j hj => ?_⟩
    rw [hget₂, update_place hc hj, update_place hc hj]
    rw [hget r hr c hc, hget t ht c hc, hget i hi j hj]
    rcases Nat.lt_trichotomy j c with hjc | rfl | hjc
    · simp [hjc, Nat.ne_of_lt hjc, Nat.lt_succ_of_lt hjc]
    · by_cases hit : i = t
      · simp [hit]
      · by_cases hir : i = r
        · simp [hir, hir ▸ hit]
        · simp [hit, hir, Equiv.swap_apply_of_ne_of_ne hir hit]
    · simp [Nat.not_lt_of_lt hjc, Nat.ne_of_gt hjc, Nat.not_lt.mpr hjc]
  · rintro s' ⟨hs', hget⟩
    exact ⟨hs', fun i hi j hj => by simpa [hj] using hget i hi j hj⟩

/-! ## Clearing a column -/

/-- The table after column `i` is cleared below the diagonal, the multipliers left in its place. -/
def cleared (i : Nat) (M : Nat → Nat → α) (r c : Nat) : α :=
  if r ≤ i ∨ c < i then M r c
  else if c = i then M r i / M i i
  else M r c - M r i / M i i * M i c

theorem cleared_of_le {i r : Nat} (h : r ≤ i) (M : Nat → Nat → α) (c : Nat) :
    cleared i M r c = M r c := by
  simp [cleared, h]

theorem cleared_of_lt {i c : Nat} (h : c < i) (M : Nat → Nat → α) (r : Nat) :
    cleared i M r c = M r c := by
  simp [cleared, h]

theorem cleared_self {i r : Nat} (h : i < r) (M : Nat → Nat → α) :
    cleared i M r i = M r i / M i i := by
  simp [cleared, Nat.not_le.mpr h]

theorem cleared_of_gt {i r c : Nat} (hr : i < r) (hc : i < c) (M : Nat → Nat → α) :
    cleared i M r c = M r c - M r i / M i i * M i c := by
  simp [cleared, Nat.not_le.mpr hr, Nat.not_lt_of_lt hc, Nat.ne_of_gt hc]

/-- Clearing reads the row itself and row `i` only. -/
theorem cleared_congr {M N : Nat → Nat → α} {i r c : Nat} (hi : i < n) (hc : c < n)
    (hrow : ∀ c < n, M r c = N r c) (hdiagonal : ∀ c < n, M i c = N i c) :
    cleared i M r c = cleared i N r c := by
  simp only [cleared, hrow c hc, hrow i hi, hdiagonal c hc, hdiagonal i hi]

theorem clearRow_ok (ha : a.Lawful (n * n) ok get) {s : σ} (hs : ok s) {i j : Nat} (hij : i < j)
    (hj : j < n) :
    ∃ s', clearRow a n i j s = .ok s' ∧ ok s' ∧ ∀ r < n, ∀ c < n, get s' (r * n + c) =
      if r = j then cleared i (fun r c => get s (r * n + c)) r c else get s (r * n + c) := by
  have hi : i < n := by omega
  obtain ⟨s₁, hw₁, hs₁, hget₁⟩ :=
    ha.write hs (place_lt hj hi) (get s (j * n + i) / get s (i * n + i))
  simp only [clearRow, ha.read hs (place_lt hj hi), ha.read hs (place_lt hi hi), bind, Except.bind, hw₁]
  -- Row `j` is done before column `k`.
  refine Loop.up_ok (fun k s' => ok s' ∧ ∀ r < n, ∀ c < n, get s' (r * n + c) =
      if r = j ∧ c < k then cleared i (fun r c => get s (r * n + c)) r c else get s (r * n + c))
    hi ⟨hs₁, fun r hr c hc => ?_⟩ ?_ ?_
  · rw [hget₁, update_place hi hc]
    by_cases hrj : r = j
    · subst hrj
      rcases Nat.lt_trichotomy c i with hci | rfl | hci
      · simp [Nat.ne_of_lt hci, Nat.lt_succ_of_lt hci, cleared_of_lt hci]
      · simp [cleared_self hij]
      · simp [Nat.ne_of_gt hci, Nat.not_lt.mpr hci]
    · simp [hrj]
  · rintro k s' hik hk ⟨hs', hget⟩
    have hv := hget j hj k hk
    have hm := hget j hj i hi
    have hu := hget i hi k hk
    simp only [Nat.lt_irrefl, and_false, if_false] at hv
    simp only [Nat.lt_of_succ_le hik, and_self, if_true, cleared_self hij] at hm
    simp only [Nat.ne_of_lt hij, false_and, if_false] at hu
    obtain ⟨s₂, hw₂, hs₂, hget₂⟩ := ha.write hs' (place_lt hj hk)
      (get s' (j * n + k) - get s' (j * n + i) * get s' (i * n + k))
    refine ⟨s₂, ?_, hs₂, fun r hr c hc => ?_⟩
    · simp only [ha.read hs' (place_lt hj hk), ha.read hs' (place_lt hj hi),
        ha.read hs' (place_lt hi hk), hw₂]
    · rw [hget₂, update_place hk hc, hv, hm, hu, hget r hr c hc]
      by_cases hrj : r = j
      · subst hrj
        rcases Nat.lt_trichotomy c k with hck | rfl | hck
        · simp [Nat.ne_of_lt hck, hck, Nat.lt_succ_of_lt hck]
        · simp [cleared_of_gt hij (Nat.lt_of_succ_le hik)]
        · simp [Nat.ne_of_gt hck, Nat.not_lt_of_lt hck, Nat.not_lt.mpr hck]
      · simp [hrj]
  · rintro s' ⟨hs', hget⟩
    exact ⟨hs', fun r hr c hc => by simpa [hc] using hget r hr c hc⟩

theorem clearBelow_ok (ha : a.Lawful (n * n) ok get) {s : σ} (hs : ok s) {i : Nat} (hi : i < n) :
    ∃ s', clearBelow a n i s = .ok s' ∧ ok s' ∧ ∀ r < n, ∀ c < n,
      get s' (r * n + c) = cleared i (fun r c => get s (r * n + c)) r c := by
  -- The rows before `j` are done.
  refine Loop.up_ok (fun j s' => ok s' ∧ ∀ r < n, ∀ c < n, get s' (r * n + c) =
      if r < j then cleared i (fun r c => get s (r * n + c)) r c else get s (r * n + c))
    hi ⟨hs, fun r hr c hc => ?_⟩ ?_ ?_
  · split
    · rw [cleared_of_le (by omega)]
    · rfl
  · rintro j s' hij hj ⟨hs', hget⟩
    obtain ⟨s₂, h₂, hs₂, hget₂⟩ := clearRow_ok ha hs' (Nat.lt_of_succ_le hij) hj
    refine ⟨s₂, h₂, hs₂, fun r hr c hc => ?_⟩
    rw [hget₂ r hr c hc, hget r hr c hc]
    rcases Nat.lt_trichotomy r j with hrj | rfl | hrj
    · simp [Nat.ne_of_lt hrj, hrj, Nat.lt_succ_of_lt hrj]
    · -- Row `r` is as it was, and so is the pivot row.
      simp only [if_true, Nat.lt_succ_self]
      refine cleared_congr hi hc (fun c hc => ?_) fun c hc => ?_
      · simpa using hget r hr c hc
      · rw [hget i hi c hc, cleared_of_le (Nat.le_refl _), ite_self]
    · simp [Nat.ne_of_gt hrj, Nat.not_lt_of_lt hrj, Nat.not_lt.mpr hrj]
  · rintro s' ⟨hs', hget⟩
    exact ⟨hs', fun r hr c hc => by simpa [hr] using hget r hr c hc⟩

/-! ## Runs -/

/-- The tables that elimination can reach from `A`: after `i` columns the table is `M`, row `π r`
of `A` went into row `r`, and `k` exchanges were made. -/
inductive Eliminated (n : Nat) (tol : α) (A : Nat → Nat → α) :
    Nat → (Nat → Nat → α) → Equiv.Perm (Fin n) → Nat → Prop where
  | start {M : Nat → Nat → α} : (∀ r < n, ∀ c < n, M r c = A r c) → Eliminated n tol A 0 M 1 0
  | column {M M' : Nat → Nat → α} {π : Equiv.Perm (Fin n)} {k : Nat} (i t : Fin n) :
      Eliminated n tol A i M π k →
      (bestPivot n i fun r => M r i).row = t →
      Scalar.atMost (bestPivot n i fun r => M r i).size tol = false →
      (∀ r < n, ∀ c < n, M' r c = cleared i (fun r => M (Equiv.swap (i : Nat) t r)) r c) →
      Eliminated n tol A (i + 1) M' (π * Equiv.swap i t) (if t = i then k else k + 1)

/-- A run of elimination from the table `A` that ended with `e`: at the last column, or at one
whose best pivot is not above `tol`. -/
structure Ended (n : Nat) (tol : α) (A : Nat → Nat → α) (get : σ → Nat → α) (e : Elimination σ)
    (π : Equiv.Perm (Fin n)) (k : Nat) : Prop where
  order : e.order.Records π k
  table : Eliminated n tol A (e.stopped.getD n) (fun r c => get e.state (r * n + c)) π k
  stuck : ∀ c, e.stopped = some c → c < n ∧
    Scalar.atMost (bestPivot n c fun r => get e.state (r * n + c)).size tol = true

/-- A column that has a pivot takes the run one column further. -/
theorem column_ok (ha : a.Lawful (n * n) ok get) {tol : α} {A : Nat → Nat → α} {i k : Nat} {s : σ}
    {p : RowOrder} {π : Equiv.Perm (Fin n)} (count : Nat) (hi : i < n) (hs : ok s) (hp : p.Records π k)
    (h : Eliminated n tol A i (fun r c => get s (r * n + c)) π k)
    (hpivot : Scalar.atMost (bestPivot n i fun r => get s (r * n + i)).size tol = false) :
    ∃ s' p' π' k', columns a n tol i (count + 1) s p = columns a n tol (i + 1) count s' p' ∧
      ok s' ∧ p'.Records π' k' ∧
      Eliminated n tol A (i + 1) (fun r c => get s' (r * n + c)) π' k' := by
  obtain ⟨-, hrow, -⟩ := bestPivot_cases hi fun r => get s (r * n + i)
  simp only [columns, pivot_eq ha hs hi, bind, Except.bind, hpivot, Bool.false_eq_true, if_false]
  split
  next heq =>
    obtain ⟨s', hs', hok, hget⟩ := clearBelow_ok ha hs hi
    refine ⟨s', p, _, _, by rw [hs'], hok, ?_,
      .column ⟨i, hi⟩ ⟨_, hrow⟩ h rfl hpivot fun r hr c hc => ?_⟩
    · simpa [heq, ← Equiv.Perm.one_def] using hp
    · simpa [heq] using hget r hr c hc
  next hne =>
    obtain ⟨p₁, hp₁, hrec₁⟩ := hp.exchange ⟨i, hi⟩ ⟨_, hrow⟩
    obtain ⟨s₁, hs₁, hok₁, hget₁⟩ := exchangeRows_ok ha hs hi hrow
    obtain ⟨p₂, hp₂, hrec₂⟩ := hrec₁.count
    obtain ⟨s₂, hs₂, hok₂, hget₂⟩ := clearBelow_ok ha hok₁ hi
    refine ⟨s₂, p₂, _, _, ?_, hok₂, ?_,
      .column ⟨i, hi⟩ ⟨_, hrow⟩ h rfl hpivot fun r hr c hc => ?_⟩
    · simp only at hp₁
      rw [hp₁, hs₁]
      simp only [hp₂, hs₂]
    · simpa [hne] using hrec₂
    · rw [hget₂ r hr c hc]
      exact cleared_congr hi hc (hget₁ r hr) (hget₁ i hi)

theorem columns_ok (ha : a.Lawful (n * n) ok get) (tol : α) {A : Nat → Nat → α} {i count k : Nat}
    {s : σ} {p : RowOrder} {π : Equiv.Perm (Fin n)} (hi : i + count = n) (hs : ok s)
    (hp : p.Records π k) (h : Eliminated n tol A i (fun r c => get s (r * n + c)) π k) :
    ∃ e π' k', columns a n tol i count s p = .ok e ∧ ok e.state ∧ Ended n tol A get e π' k' := by
  induction count generalizing i s p π k with
  | zero =>
      refine ⟨⟨none, s, p⟩, π, k, rfl, hs, hp, ?_, by simp⟩
      simpa [← hi] using h
  | succ count ih =>
      have hin : i < n := by omega
      cases hpivot : Scalar.atMost (bestPivot n i fun r => get s (r * n + i)).size tol with
      | true =>
          refine ⟨⟨some i, s, p⟩, π, k, ?_, hs, hp, h, ?_⟩
          · simp only [columns, pivot_eq ha hs hin, bind, Except.bind, hpivot, if_true]
            rfl
          · rintro c ⟨⟩
            exact ⟨hin, hpivot⟩
      | false =>
          obtain ⟨s', p', π', k', heq, hs', hp', h'⟩ := column_ok ha count hin hs hp h hpivot
          rw [heq]
          exact ih (by omega) hs' hp' h'

/-- Elimination never faults, and touches only the cells of its block. -/
theorem decompose_ok (ha : a.Lawful (n * n) ok get) (tol : α) {A : Nat → Nat → α} {s : σ}
    {p : RowOrder} (hs : ok s) (hp : p.entries.size = n + 1)
    (hA : ∀ r < n, ∀ c < n, get s (r * n + c) = A r c) :
    ∃ e π k, decompose a n p tol s = .ok e ∧ ok e.state ∧ Ended n tol A get e π k :=
  columns_ok ha tol (Nat.zero_add n) hs (RowOrder.records_reset hp) (.start hA)

end PivotedLU.Kernel
