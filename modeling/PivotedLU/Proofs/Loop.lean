import PivotedLU.Loop

/-!
# Invariants of bounded loops

A loop succeeds when every pass succeeds and takes the invariant one index further; the invariant
then holds at the last index.
-/

namespace PivotedLU.Loop

variable {ε σ : Type}

theorem up_ok {step : Nat → σ → Except ε σ} {lo hi : Nat} {s : σ} {post : σ → Prop}
    (inv : Nat → σ → Prop) (hle : lo ≤ hi) (h : inv lo s)
    (hstep : ∀ i s, lo ≤ i → i < hi → inv i s → ∃ s', step i s = .ok s' ∧ inv (i + 1) s')
    (hpost : ∀ s', inv hi s' → post s') : ∃ s', up lo hi step s = .ok s' ∧ post s' := by
  obtain ⟨d, rfl⟩ := Nat.exists_eq_add_of_le hle
  induction d generalizing lo s with
  | zero => exact ⟨s, up_of_le (Nat.le_refl _) step s, hpost s h⟩
  | succ d ih =>
      obtain ⟨s₁, h₁, hinv⟩ := hstep lo s (Nat.le_refl _) (by omega) h
      have hadd : lo + (d + 1) = lo + 1 + d := by omega
      rw [hadd] at hpost
      rw [up_succ (by omega), h₁, hadd]
      exact ih hinv (by omega) (fun i s hlo hhi => hstep i s (by omega) (by omega)) hpost

/-- A loop whose every pass is a function of the state is a fold over its indices. -/
theorem up_eq_foldl {step : Nat → σ → Except ε σ} {lo hi : Nat} (f : σ → Nat → σ)
    (hstep : ∀ i s, lo ≤ i → i < hi → step i s = .ok (f s i)) (s : σ) :
    up lo hi step s = .ok ((List.range' lo (hi - lo)).foldl f s) := by
  induction hd : hi - lo generalizing lo s with
  | zero => exact up_of_le (by omega) step s
  | succ d ih =>
      rw [up_succ (by omega), hstep lo s (Nat.le_refl _) (by omega)]
      exact ih (fun i s hlo hhi => hstep i s (by omega) hhi) (f s lo) (by omega)

theorem up_congr {step step' : Nat → σ → Except ε σ} {lo hi : Nat}
    (h : ∀ i s, lo ≤ i → i < hi → step i s = step' i s) (s : σ) :
    up lo hi step s = up lo hi step' s := by
  induction hd : hi - lo generalizing lo s with
  | zero => rw [up_of_le (by omega), up_of_le (by omega)]
  | succ d ih =>
      rw [up_succ (by omega), up_succ (by omega), h lo s (Nat.le_refl _) (by omega)]
      congr 1
      funext s'
      exact ih (fun i s hlo hhi => h i s (by omega) hhi) s' (by omega)

theorem down_ok {step : Nat → σ → Except ε σ} {n : Nat} {s : σ} {post : σ → Prop}
    (inv : Nat → σ → Prop) (h : inv n s)
    (hstep : ∀ i s, i < n → inv (i + 1) s → ∃ s', step i s = .ok s' ∧ inv i s')
    (hpost : ∀ s', inv 0 s' → post s') : ∃ s', down step n s = .ok s' ∧ post s' := by
  induction n generalizing s with
  | zero => exact ⟨s, rfl, hpost s h⟩
  | succ n ih =>
      obtain ⟨s₁, h₁, hinv⟩ := hstep n s (by omega) h
      rw [down_succ, h₁]
      exact ih hinv fun i s hi => hstep i s (by omega)

/-- Two nested loops go through a table row by row; the invariant counts the places passed. -/
theorem up_up_ok {step : Nat → Nat → σ → Except ε σ} {rows cols : Nat} {s : σ} {post : σ → Prop}
    (inv : Nat → σ → Prop) (h : inv 0 s)
    (hstep : ∀ i j s, i < rows → j < cols → inv (i * cols + j) s →
      ∃ s', step i j s = .ok s' ∧ inv (i * cols + j + 1) s')
    (hpost : ∀ s', inv (rows * cols) s' → post s') :
    ∃ s', up 0 rows (fun i => up 0 cols (step i)) s = .ok s' ∧ post s' := by
  refine up_ok (fun i => inv (i * cols)) (Nat.zero_le _) (by simpa using h)
    (fun i s _ hi hinv => ?_) hpost
  rw [Nat.succ_mul]
  exact up_ok (fun j => inv (i * cols + j)) (Nat.zero_le _) hinv
    (fun j s _ hj hinv => hstep i j s hi hj hinv) fun _ h => h

end PivotedLU.Loop
