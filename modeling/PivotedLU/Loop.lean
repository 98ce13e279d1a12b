/-!
# Bounded loops

Loops over an interval of indices that stop at the first failure.
-/

namespace PivotedLU.Loop

variable {ε σ : Type}

/-- Runs `step` on `i`, `i + 1`, …, `count` times in all. -/
@[specialize] def steps (step : Nat → σ → Except ε σ) : Nat → Nat → σ → Except ε σ
  | _, 0, s => .ok s
  | i, count + 1, s =>
    match step i s with
    | .ok s' => steps step (i + 1) count s'
    | .error e => .error e

/-- Runs `step` on `lo`, …, `hi - 1` in increasing order. -/
@[inline] def up (lo hi : Nat) (step : Nat → σ → Except ε σ) (s : σ) : Except ε σ :=
  steps step lo (hi - lo) s

/-- Runs `step` on `n - 1`, …, `0` in decreasing order. -/
@[specialize] def down (step : Nat → σ → Except ε σ) : Nat → σ → Except ε σ
  | 0, s => .ok s
  | n + 1, s =>
    match step n s with
    | .ok s' => down step n s'
    | .error e => .error e

/-! ## Unfolding -/

@[simp] theorem steps_zero (step : Nat → σ → Except ε σ) (i : Nat) (s : σ) :
    steps step i 0 s = .ok s := rfl

theorem up_of_le {lo hi : Nat} (h : hi ≤ lo) (step : Nat → σ → Except ε σ) (s : σ) :
    up lo hi step s = .ok s := by
  simp [up, Nat.sub_eq_zero_of_le h]

theorem up_succ {lo hi : Nat} (h : lo < hi) (step : Nat → σ → Except ε σ) (s : σ) :
    up lo hi step s = (step lo s).bind (up (lo + 1) hi step) := by
  obtain ⟨d, rfl⟩ : ∃ d, hi = lo + (d + 1) := ⟨hi - lo - 1, by omega⟩
  have h1 : lo + (d + 1) - lo = d + 1 := by omega
  have h2 : lo + (d + 1) - (lo + 1) = d := by omega
  cases hs : step lo s <;> simp [up, h1, h2, steps, hs, Except.bind]

@[simp] theorem down_zero (step : Nat → σ → Except ε σ) (s : σ) : down step 0 s = .ok s := rfl

theorem down_succ (step : Nat → σ → Except ε σ) (n : Nat) (s : σ) :
    down step (n + 1) s = (step n s).bind (down step n) := by
  simp only [down]
  cases step n s <;> rfl

end PivotedLU.Loop
