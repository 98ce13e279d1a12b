import PivotedLU.Kernel.Product
import PivotedLU.Proofs.Accumulation
import PivotedLU.Proofs.Cells
import PivotedLU.Proofs.Loop

/-!
# Products on tables
-/

namespace PivotedLU.Kernel

variable {σ α : Type} {ok : σ → Prop} {get : σ → Nat → α} {rows inner cols : Nat}

/-- Two nested loops that write one cell in each pass, every time at another place, leave at all
these places what they wrote. -/
theorem scatter_ok {r : Cells σ α} {size : Nat} (hr : r.Lawful size ok get) {place : Nat → Nat → Nat}
    (hplace : ∀ {i j}, i < rows → j < cols → place i j < size)
    (hinj : ∀ {i j i' j'}, i < rows → j < cols → i' < rows → j' < cols →
      place i' j' = place i j → i' = i ∧ j' = j)
    (f : Nat → Nat → α) {step : Nat → Nat → σ → Except Fault σ}
    (hstep : ∀ i j s, i < rows → j < cols → ok s → step i j s = r.write s (place i j) (f i j))
    {s : σ} (hs : ok s) :
    ∃ s', Loop.up 0 rows (fun i => Loop.up 0 cols (step i)) s = .ok s' ∧ ok s' ∧
      ∀ i < rows, ∀ j < cols, get s' (place i j) = f i j := by
  refine Loop.up_up_ok (fun m s' => ok s' ∧ ∀ i < rows, ∀ j < cols, i * cols + j < m →
      get s' (place i j) = f i j) ⟨hs, fun i _ j _ h => by omega⟩ ?_ ?_
  · rintro i j s' hi hj ⟨hs', hget⟩
    obtain ⟨s₁, hw, hs₁, hget₁⟩ := hr.write hs' (hplace hi hj) (f i j)
    refine ⟨s₁, (hstep i j s' hi hj hs').trans hw, hs₁, fun i' hi' j' hj' h => ?_⟩
    rw [hget₁, Function.update_apply]
    split
    next heq =>
      obtain ⟨rfl, rfl⟩ := hinj hi hj hi' hj' heq
      rfl
    next hne =>
      have hother : i' * cols + j' ≠ i * cols + j := fun h' => by
        obtain ⟨rfl, rfl⟩ := (place_inj hj' hj).mp h'
        exact hne rfl
      exact hget i' hi' j' hj' (by omega)
  · rintro s' ⟨hs', hget⟩
    exact ⟨hs', fun i hi j hj => hget i hi j hj (place_lt hi hj)⟩

variable [Scalar α] {x y : Reader σ α} {r : Cells σ α} {X Y : Nat → Nat → α}

theorem rectangular_ok (hr : r.Lawful (rows * cols) ok get) (hx : x.Shows rows inner ok X)
    (hy : y.Shows inner cols ok Y) {s : σ} (hs : ok s) :
    ∃ s', rectangular x y r rows inner cols s = .ok s' ∧ ok s' ∧ ∀ i < rows, ∀ j < cols,
      get s' (i * cols + j) = sumProducts (X i) (fun k => Y k j) inner := by
  refine scatter_ok hr place_lt (fun _ hj _ hj' h => (place_inj hj' hj).mp h) _
    (fun i j s hi hj hs => ?_) hs
  have hsum : Loop.up 0 inner (fun k (acc : α) => do
      let u ← x s (i * inner + k)
      let v ← y s (k * cols + j)
      return acc + u * v) 0 = .ok (sumProducts (X i) (fun k => Y k j) inner) := by
    refine Loop.up_eq_foldl (fun acc k => acc + X i k * Y k j) (fun k acc _ hk => ?_) 0
    rw [hx hs hi hk, hy hs hk hj]
    rfl
  rw [hsum]
  rfl

/-- A square product runs a loop of its own, which is that of any other product. -/
theorem product_ok (hr : r.Lawful (rows * cols) ok get) (hx : x.Shows rows inner ok X)
    (hy : y.Shows inner cols ok Y) {s : σ} (hs : ok s) :
    ∃ s', product x y r rows inner cols s = .ok s' ∧ ok s' ∧ ∀ i < rows, ∀ j < cols,
      get s' (i * cols + j) = sumProducts (X i) (fun k => Y k j) inner := by
  unfold product
  split
  next hsquare =>
    obtain ⟨rfl, rfl⟩ := hsquare
    exact rectangular_ok hr hx hy hs
  next => exact rectangular_ok hr hx hy hs

end PivotedLU.Kernel
