import PivotedLU.Kernel.Product
import PivotedLU.Kernel.Transposition
import PivotedLU.Proofs.Elimination.Frame
import PivotedLU.Proofs.Substitution

/-!
# What kernels may write

A kernel changes a state only through the cells that are given to it for writing. What none of their
writes can undo holds after every run that comes to an end, whatever is read meanwhile.
-/

namespace PivotedLU

variable {ε σ α : Type}

/-- No write leaves `ok`. -/
def Cells.Stable (c : Cells σ α) (ok : σ → Prop) : Prop :=
  ∀ s i v t, ok s → c.write s i v = .ok t → ok t

theorem Cells.Stable.keeps {c : Cells σ α} {ok : σ → Prop} (h : c.Stable ok) (size : Nat) :
    c.Keeps size ok :=
  fun s i v t hs _ hw => h s i v t hs hw

theorem Cells.Stable.along {c : Cells σ α} {ok : σ → Prop} (h : c.Stable ok) (place : Nat → Nat) :
    (c.along place).Stable ok :=
  fun s i v t hs hw => h s (place i) v t hs hw

theorem Loop.down_keeps {step : Nat → σ → Except ε σ} {n : Nat} {s t : σ} (ok : σ → Prop)
    (hstep : ∀ i s t, ok s → step i s = .ok t → ok t) (hs : ok s) (h : down step n s = .ok t) : ok t := by
  induction n generalizing s with
  | zero =>
      cases h
      exact hs
  | succ n ih =>
      rw [down_succ] at h
      obtain ⟨s₁, h₁, hrest⟩ := exists_of_bind_ok h
      exact ih (hstep n s s₁ hs h₁) hrest

namespace Kernel

variable {c : Cells σ α} {a x y b : Reader σ α} {p : RowOrder} {n : Nat} {ok : σ → Prop} {s t : σ}
  (hc : c.Stable ok)

include hc

theorem transpose_stable (hs : ok s) (h : transpose c n s = .ok t) : ok t := by
  refine Loop.up_keeps ok (fun i s t _ hs h => ?_) hs h
  refine Loop.up_keeps ok (fun j s t _ hs h => ?_) hs h
  obtain ⟨v, -, h⟩ := exists_of_bind_ok h
  obtain ⟨w, -, h⟩ := exists_of_bind_ok h
  obtain ⟨s₁, hw, h⟩ := exists_of_bind_ok h
  exact hc _ _ _ _ (hc _ _ _ _ hs hw) h

variable [Scalar α]

theorem decompose_stable {tol : α} {e : Elimination σ} (hs : ok s) (h : decompose c n p tol s = .ok e) :
    ok e.state :=
  decompose_keeps (hc.keeps (n * n)) hs h

/-! ## Products -/

theorem rectangular_stable {rows inner cols : Nat} (hs : ok s)
    (h : rectangular x y c rows inner cols s = .ok t) : ok t := by
  refine Loop.up_keeps ok (fun i s t _ hs h => ?_) hs h
  refine Loop.up_keeps ok (fun j s t _ hs h => ?_) hs h
  obtain ⟨v, -, h⟩ := exists_of_bind_ok h
  exact hc _ _ _ _ hs h

theorem multiply_stable (hs : ok s) (h : multiply x y c n s = .ok t) : ok t :=
  rectangular_stable hc hs h

theorem product_stable {rows inner cols : Nat} (hs : ok s)
    (h : product x y c rows inner cols s = .ok t) : ok t := by
  unfold product at h
  split at h
  · exact multiply_stable hc hs h
  · exact rectangular_stable hc hs h

/-! ## Substitution -/

theorem reduceCell_stable {i lo hi : Nat} (hs : ok s) (h : reduceCell a n c i lo hi s = .ok t) : ok t := by
  refine Loop.up_keeps ok (fun k s t _ hs h => ?_) hs h
  obtain ⟨v, -, h⟩ := exists_of_bind_ok h
  obtain ⟨u, -, h⟩ := exists_of_bind_ok h
  obtain ⟨known, -, h⟩ := exists_of_bind_ok h
  exact hc _ _ _ _ hs h

theorem forward_stable {start : Nat → σ → Except Fault α} (hs : ok s)
    (h : forward a start n c s = .ok t) : ok t := by
  refine Loop.up_keeps ok (fun i s t _ hs h => ?_) hs h
  obtain ⟨v, -, h⟩ := exists_of_bind_ok h
  obtain ⟨s₁, hw, h⟩ := exists_of_bind_ok h
  exact reduceCell_stable hc (hc _ _ _ _ hs hw) h

theorem backward_stable (hs : ok s) (h : backward a n c s = .ok t) : ok t := by
  refine Loop.down_keeps ok (fun i s t hs h => ?_) hs h
  obtain ⟨s₁, h₁, h⟩ := exists_of_bind_ok h
  obtain ⟨v, -, h⟩ := exists_of_bind_ok h
  obtain ⟨diagonal, -, h⟩ := exists_of_bind_ok h
  exact hc _ _ _ _ (reduceCell_stable hc hs h₁) h

theorem solve_stable (hs : ok s) (h : solve a p b n c s = .ok t) : ok t := by
  rw [solve_eq] at h
  obtain ⟨s₁, h₁, h⟩ := exists_of_bind_ok h
  exact backward_stable hc (forward_stable hc hs h₁) h

theorem invert_stable (hs : ok s) (h : invert a p n c s = .ok t) : ok t := by
  rw [invert_eq] at h
  refine Loop.up_keeps ok (fun j s t _ hs h => ?_) hs h
  obtain ⟨s₁, h₁, h⟩ := exists_of_bind_ok h
  have hcolumn := hc.along (· * n + j)
  exact backward_stable hcolumn (forward_stable hcolumn hs h₁) h

end Kernel

end PivotedLU
