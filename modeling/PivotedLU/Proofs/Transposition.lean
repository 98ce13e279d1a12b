import PivotedLU.Kernel.Transposition
import PivotedLU.Proofs.Product

/-!
# Transposition on tables

In place, the loops go through the pairs of entries that stand opposite each other. `Swapped` says
what a table holds when they have come to some pair.
-/

namespace PivotedLU.Kernel

variable {σ α : Type} {ok : σ → Prop} {get : σ → Nat → α} {n i j : Nat} {f g : Nat → α}

/-! ## In place -/

/-- The entries that need no exchange when the loops come to row `i` and column `j`: those on the
diagonal, and those whose pair came up before with its smaller index as the row. -/
def Passed (i j r k : Nat) : Prop :=
  r = k ∨ min r k < i ∨ min r k = i ∧ max r k < j

instance (i j r k : Nat) : Decidable (Passed i j r k) :=
  inferInstanceAs (Decidable (_ ∨ _))

/-- `g` is the `n × n` table `f` with the passed entries where they belong in the transpose. -/
def Swapped (n : Nat) (f g : Nat → α) (i j : Nat) : Prop :=
  ∀ r < n, ∀ k < n, g (r * n + k) = if Passed i j r k then f (k * n + r) else f (r * n + k)

namespace Swapped

theorem start (n : Nat) (f : Nat → α) : Swapped n f f 0 1 := by
  intro r _ k _
  split
  next h =>
    have heq : r = k := by
      unfold Passed at h
      omega
    rw [heq]
  next => rfl

theorem exchange (h : Swapped n f g i j) (hij : i < j) (hj : j < n) :
    Swapped n f (Function.update (Function.update g (i * n + j) (g (j * n + i))) (j * n + i)
      (g (i * n + j))) i (j + 1) := by
  have hi : i < n := Nat.lt_trans hij hj
  have hupper : g (i * n + j) = f (i * n + j) := by
    rw [h i hi j hj, if_neg (by unfold Passed; omega)]
  have hlower : g (j * n + i) = f (j * n + i) := by
    rw [h j hj i hi, if_neg (by unfold Passed; omega)]
  intro r hr k hk
  rw [update_place hi hk, update_place hj hk, hupper, hlower]
  by_cases hbelow : r = j ∧ k = i
  · obtain ⟨rfl, rfl⟩ := hbelow
    rw [if_pos ⟨rfl, rfl⟩, if_pos (by unfold Passed; omega)]
  · rw [if_neg hbelow]
    by_cases habove : r = i ∧ k = j
    · obtain ⟨rfl, rfl⟩ := habove
      rw [if_pos ⟨rfl, rfl⟩, if_pos (by unfold Passed; omega)]
    · rw [if_neg habove, h r hr k hk]
      have hsame : Passed i j r k ↔ Passed i (j + 1) r k := by
        unfold Passed
        omega
      simp only [hsame]

/-- Behind the last column the next row begins, right of the diagonal. -/
theorem nextRow (h : Swapped n f g i n) : Swapped n f g (i + 1) (i + 2) := by
  intro r hr k hk
  have hsame : Passed i n r k ↔ Passed (i + 1) (i + 2) r k := by
    unfold Passed
    omega
  rw [h r hr k hk]
  simp only [hsame]

theorem finish (h : Swapped n f g n j) {r k : Nat} (hr : r < n) (hk : k < n) :
    g (r * n + k) = f (k * n + r) := by
  rw [h r hr k hk, if_pos (by unfold Passed; omega)]

end Swapped

theorem transpose_ok {c : Cells σ α} (hc : c.Lawful (n * n) ok get) {s : σ} (hs : ok s) :
    ∃ s', transpose c n s = .ok s' ∧ ok s' ∧
      ∀ i < n, ∀ j < n, get s' (i * n + j) = get s (j * n + i) := by
  refine Loop.up_ok (fun i s' => ok s' ∧ Swapped n (get s) (get s') i (i + 1)) (Nat.zero_le n)
    ⟨hs, .start n (get s)⟩ ?_ ?_
  · rintro i s₁ - hi ⟨hs₁, hrows⟩
    refine Loop.up_ok (fun j s' => ok s' ∧ Swapped n (get s) (get s') i j) hi ⟨hs₁, hrows⟩ ?_ ?_
    · rintro j s₂ hij hj ⟨hs₂, hpairs⟩
      obtain ⟨s₃, hrun, hs₃, hget⟩ := hc.exchange hs₂ (place_lt hi hj) (place_lt hj hi)
      refine ⟨s₃, hrun, hs₃, ?_⟩
      rw [hget]
      exact hpairs.exchange hij hj
    · rintro s₂ ⟨hs₂, hpairs⟩
      exact ⟨hs₂, hpairs.nextRow⟩
  · rintro s' ⟨hs', hpairs⟩
    exact ⟨hs', fun i hi j hj => hpairs.finish hi hj⟩

/-! ## Into other cells -/

theorem transposeInto_ok {src : Reader σ α} {dst : Cells σ α} {rows cols : Nat} {T : Nat → Nat → α}
    (hsrc : src.Shows rows cols ok T) (hdst : dst.Lawful (cols * rows) ok get) {s : σ} (hs : ok s) :
    ∃ s', transposeInto src dst rows cols s = .ok s' ∧ ok s' ∧
      ∀ i < rows, ∀ j < cols, get s' (j * rows + i) = T i j := by
  refine scatter_ok hdst (fun hi hj => place_lt hj hi) (fun hi _ hi' _ h => ?_) T
    (fun i j s hi hj hs => ?_) hs
  · exact ((place_inj hi' hi).mp h).symm
  · rw [hsrc hs hi hj]
    rfl

end PivotedLU.Kernel
