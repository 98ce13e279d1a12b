import PivotedLU.Kernel.Elimination
import PivotedLU.Proofs.Cells
import PivotedLU.Proofs.Loop

/-!
# What elimination may write

A run that comes to an end has written into the first `n * n` cells only, also when it stopped
halfway and whatever else the cells are.
-/

namespace PivotedLU

variable {ε σ α β γ : Type}

theorem exists_of_bind_ok {x : Except ε β} {f : β → Except ε γ} {w : γ} (h : x >>= f = .ok w) :
    ∃ v, x = .ok v ∧ f v = .ok w := by
  cases x with
  | ok v => exact ⟨v, rfl, h⟩
  | error e => cases h

theorem Loop.up_keeps {step : Nat → σ → Except ε σ} {lo hi : Nat} {s t : σ} (ok : σ → Prop)
    (hstep : ∀ i s t, i < hi → ok s → step i s = .ok t → ok t) (hs : ok s)
    (h : up lo hi step s = .ok t) : ok t := by
  induction hd : hi - lo generalizing lo s with
  | zero =>
      rw [up_of_le (by omega)] at h
      cases h
      exact hs
  | succ d ih =>
      rw [up_succ (by omega)] at h
      obtain ⟨s₁, h₁, hrest⟩ := exists_of_bind_ok h
      exact ih (hstep lo s s₁ (by omega) hs h₁) hrest (by omega)

namespace Kernel

variable [Scalar α] {a : Cells σ α} {n i : Nat} {ok : σ → Prop} {s t : σ}

theorem pivot_row_lt {r : Reader σ α} {best : Pivot α} (hi : i < n) (h : pivot r n i s = .ok best) :
    best.row < n := by
  refine Loop.up_keeps (fun best : Pivot α => best.row < n) (fun k best next hk hbest h => ?_) hi h
  obtain ⟨v, -, h⟩ := exists_of_bind_ok h
  cases h
  show Pivot.row (if _ then _ else _) < n
  split
  · exact hk
  · exact hbest

variable (ha : a.Keeps (n * n) ok)

include ha

omit [Scalar α] in
theorem exchangeRows_keeps {r q : Nat} (hr : r < n) (hq : q < n) (hs : ok s)
    (h : exchangeRows a n r q s = .ok t) : ok t := by
  refine Loop.up_keeps ok (fun c s t hc hs h => ?_) hs h
  obtain ⟨x, -, h⟩ := exists_of_bind_ok h
  obtain ⟨y, -, h⟩ := exists_of_bind_ok h
  obtain ⟨s₁, hw, h⟩ := exists_of_bind_ok h
  exact ha _ _ _ _ (ha _ _ _ _ hs (place_lt hr hc) hw) (place_lt hq hc) h

theorem clearRow_keeps {j : Nat} (hi : i < n) (hj : j < n) (hs : ok s) (h : clearRow a n i j s = .ok t) :
    ok t := by
  obtain ⟨head, -, h⟩ := exists_of_bind_ok h
  obtain ⟨diagonal, -, h⟩ := exists_of_bind_ok h
  obtain ⟨s₁, hw, h⟩ := exists_of_bind_ok h
  refine Loop.up_keeps ok (fun k s t hk hs h => ?_) (ha _ _ _ _ hs (place_lt hj hi) hw) h
  obtain ⟨v, -, h⟩ := exists_of_bind_ok h
  obtain ⟨multiplier, -, h⟩ := exists_of_bind_ok h
  obtain ⟨u, -, h⟩ := exists_of_bind_ok h
  exact ha _ _ _ _ hs (place_lt hj hk) h

theorem clearBelow_keeps (hi : i < n) (hs : ok s) (h : clearBelow a n i s = .ok t) : ok t :=
  Loop.up_keeps ok (fun _ _ _ hj hs h => clearRow_keeps ha hi hj hs h) hs h

theorem columns_keeps {tol : α} {count : Nat} {p : RowOrder} {e : Elimination σ} (hi : i + count = n)
    (hs : ok s) (h : columns a n tol i count s p = .ok e) : ok e.state := by
  induction count generalizing i s p with
  | zero =>
      cases h
      exact hs
  | succ count ih =>
      obtain ⟨best, hbest, h⟩ := exists_of_bind_ok h
      have hlt : i < n := by omega
      split at h
      next =>
        cases h
        exact hs
      next =>
        split at h
        next =>
          obtain ⟨s₁, h₁, h⟩ := exists_of_bind_ok h
          exact ih (by omega) (clearBelow_keeps ha hlt hs h₁) h
        next =>
          obtain ⟨q, -, h⟩ := exists_of_bind_ok h
          obtain ⟨s₁, h₁, h⟩ := exists_of_bind_ok h
          obtain ⟨q', -, h⟩ := exists_of_bind_ok h
          obtain ⟨s₂, h₂, h⟩ := exists_of_bind_ok h
          have hs₁ := exchangeRows_keeps ha hlt (pivot_row_lt hlt hbest) hs h₁
          exact ih (by omega) (clearBelow_keeps ha hlt hs₁ h₂) h

theorem decompose_keeps {tol : α} {p : RowOrder} {e : Elimination σ} (hs : ok s)
    (h : decompose a n p tol s = .ok e) : ok e.state :=
  columns_keeps ha (Nat.zero_add n) hs h

end Kernel

end PivotedLU
