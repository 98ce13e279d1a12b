import PivotedLU.Kernel.Diagonal
import PivotedLU.Kernel.Product
import PivotedLU.Kernel.Transposition
import PivotedLU.Proofs.RowOrder
import PivotedLU.Proofs.Substitution

/-!
# Kernels within bounds

A kernel that is given enough cells goes through, whatever the cells hold and whichever of them are
the same: the places it asks for are counted by the dimension only.
-/

namespace PivotedLU

variable {ε σ α β γ : Type}

theorem bind_ok {x : Except ε β} {f : β → Except ε γ} {P : β → Prop} {Q : γ → Prop}
    (hx : ∃ v, x = .ok v ∧ P v) (hf : ∀ v, P v → ∃ w, f v = .ok w ∧ Q w) :
    ∃ w, x >>= f = .ok w ∧ Q w := by
  obtain ⟨v, rfl, hv⟩ := hx
  exact hf v hv

theorem bind_of_ok {x : Except ε β} {f : β → Except ε γ} {Q : γ → Prop}
    (hx : ∃ v, x = .ok v) (hf : ∀ v, ∃ w, f v = .ok w ∧ Q w) : ∃ w, x >>= f = .ok w ∧ Q w := by
  obtain ⟨v, rfl⟩ := hx
  exact hf v

variable {a x y b : Reader σ α} {c r : Cells σ α} {n : Nat} {ok : σ → Prop} {s : σ}

namespace Kernel

/-! ## Transposition -/

theorem transpose_bounds (hc : c.Usable (n * n) ok) (hs : ok s) :
    ∃ s', transpose c n s = .ok s' ∧ ok s' := by
  refine Loop.up_ok (fun _ => ok) (Nat.zero_le n) hs (fun i s _ hi hs => ?_) fun _ h => h
  refine Loop.up_ok (fun _ => ok) hi hs (fun j s _ hj hs => ?_) fun _ h => h
  refine bind_of_ok (hc.readable _ hs _ (place_lt hi hj)) fun v => ?_
  refine bind_of_ok (hc.readable _ hs _ (place_lt hj hi)) fun w => ?_
  exact bind_ok (hc.write hs (place_lt hi hj) w) fun s hs => hc.write hs (place_lt hj hi) v

theorem transposeInto_bounds {rows cols : Nat} (ha : a.Readable (rows * cols) ok)
    (hc : c.Usable (cols * rows) ok) (hs : ok s) :
    ∃ s', transposeInto a c rows cols s = .ok s' ∧ ok s' := by
  refine Loop.up_ok (fun _ => ok) (Nat.zero_le rows) hs (fun i s _ hi hs => ?_) fun _ h => h
  refine Loop.up_ok (fun _ => ok) (Nat.zero_le cols) hs (fun j s _ hj hs => ?_) fun _ h => h
  exact bind_of_ok (ha _ hs _ (place_lt hi hj)) fun v => hc.write hs (place_lt hj hi) v

variable [Scalar α]

/-! ## Along the diagonal -/

theorem trace_bounds (ha : a.Readable (n * n) ok) (hs : ok s) : ∃ v, trace a n s = .ok v := by
  obtain ⟨v, hv, -⟩ : ∃ v, trace a n s = .ok v ∧ True := by
    refine Loop.up_ok (fun _ _ => True) (Nat.zero_le n) trivial (fun i t _ hi _ => ?_) fun _ h => h
    exact bind_of_ok (ha _ hs _ (place_lt hi hi)) fun v => ⟨t + v, rfl, trivial⟩
  exact ⟨v, hv⟩

theorem determinant_bounds {p : RowOrder} {π : Equiv.Perm (Fin n)} {k : Nat} (hn : 0 < n)
    (ha : a.Readable (n * n) ok) (hs : ok s) (hp : p.Records π k) :
    ∃ v, determinant a p n s = .ok v := by
  have hsign : ∃ v : α, p.sign = .ok v := by
    rw [RowOrder.sign, hp.swaps]
    exact ⟨_, rfl⟩
  obtain ⟨v, hv, -⟩ : ∃ v, determinant a p n s = .ok v ∧ True := by
    refine bind_of_ok (ha _ hs _ (Nat.mul_pos hn hn)) fun first => ?_
    refine bind_ok (P := fun _ => True) ?_ fun det _ => ?_
    · refine Loop.up_ok (fun _ _ => True) hn trivial (fun i d _ hi _ => ?_) fun _ h => h
      exact bind_of_ok (ha _ hs _ (place_lt hi hi)) fun v => ⟨d * v, rfl, trivial⟩
    · exact bind_of_ok hsign fun sign => ⟨det * sign, rfl, trivial⟩
  exact ⟨v, hv⟩

/-! ## Products -/

theorem rectangular_bounds {rows inner cols : Nat} (hx : x.Readable (rows * inner) ok)
    (hy : y.Readable (inner * cols) ok) (hr : r.Usable (rows * cols) ok) (hs : ok s) :
    ∃ s', rectangular x y r rows inner cols s = .ok s' ∧ ok s' := by
  refine Loop.up_ok (fun _ => ok) (Nat.zero_le rows) hs (fun i s _ hi hs => ?_) fun _ h => h
  refine Loop.up_ok (fun _ => ok) (Nat.zero_le cols) hs (fun j s _ hj hs => ?_) fun _ h => h
  refine bind_ok (P := fun _ => True) ?_ fun v _ => hr.write hs (place_lt hi hj) v
  refine Loop.up_ok (fun _ _ => True) (Nat.zero_le inner) trivial (fun k t _ hk _ => ?_) fun _ h => h
  refine bind_of_ok (hx _ hs _ (place_lt hi hk)) fun u => ?_
  exact bind_of_ok (hy _ hs _ (place_lt hk hj)) fun v => ⟨t + u * v, rfl, trivial⟩

theorem multiply_bounds (hx : x.Readable (n * n) ok) (hy : y.Readable (n * n) ok)
    (hr : r.Usable (n * n) ok) (hs : ok s) : ∃ s', multiply x y r n s = .ok s' ∧ ok s' :=
  rectangular_bounds hx hy hr hs

theorem product_bounds {rows inner cols : Nat} (hx : x.Readable (rows * inner) ok)
    (hy : y.Readable (inner * cols) ok) (hr : r.Usable (rows * cols) ok) (hs : ok s) :
    ∃ s', product x y r rows inner cols s = .ok s' ∧ ok s' := by
  unfold product
  split
  next hsquare =>
    obtain ⟨rfl, rfl⟩ := hsquare
    exact multiply_bounds hx hy hr hs
  next => exact rectangular_bounds hx hy hr hs

/-! ## Substitution -/

theorem reduceCell_bounds {i lo hi : Nat} (ha : a.Readable (n * n) ok) (hc : c.Usable n ok) (hi' : i < n)
    (hle : lo ≤ hi) (hhi : hi ≤ n) (hs : ok s) :
    ∃ s', reduceCell a n c i lo hi s = .ok s' ∧ ok s' := by
  refine Loop.up_ok (fun _ => ok) hle hs (fun k s _ hk hs => ?_) fun _ h => h
  have hkn : k < n := Nat.lt_of_lt_of_le hk hhi
  refine bind_of_ok (hc.readable _ hs _ hi') fun v => ?_
  refine bind_of_ok (ha _ hs _ (place_lt hi' hkn)) fun u => ?_
  exact bind_of_ok (hc.readable _ hs _ hkn) fun known => hc.write hs hi' (v - u * known)

theorem forward_bounds {start : Nat → σ → Except Fault α} (ha : a.Readable (n * n) ok)
    (hc : c.Usable n ok) (hstart : ∀ s, ok s → ∀ i < n, ∃ v, start i s = .ok v) (hs : ok s) :
    ∃ s', forward a start n c s = .ok s' ∧ ok s' := by
  refine Loop.up_ok (fun _ => ok) (Nat.zero_le n) hs (fun i s _ hi hs => ?_) fun _ h => h
  refine bind_of_ok (hstart s hs i hi) fun v => bind_ok (hc.write hs hi v) fun s hs => ?_
  exact reduceCell_bounds ha hc hi (Nat.zero_le i) (Nat.le_of_lt hi) hs

theorem backward_bounds (ha : a.Readable (n * n) ok) (hc : c.Usable n ok) (hs : ok s) :
    ∃ s', backward a n c s = .ok s' ∧ ok s' := by
  refine Loop.down_ok (fun _ => ok) hs (fun i s hi hs => ?_) fun _ h => h
  refine bind_ok (reduceCell_bounds ha hc hi hi (Nat.le_refl n) hs) fun s hs => ?_
  refine bind_of_ok (hc.readable _ hs _ hi) fun v => ?_
  exact bind_of_ok (ha _ hs _ (place_lt hi hi)) fun d => hc.write hs hi (v / d)

variable {p : RowOrder} {π : Equiv.Perm (Fin n)} {k : Nat}

theorem solve_bounds (ha : a.Readable (n * n) ok) (hb : b.Readable n ok) (hp : p.Records π k)
    (hn : n < 2 ^ 63) (hc : c.Usable n ok) (hs : ok s) : ∃ s', solve a p b n c s = .ok s' ∧ ok s' := by
  rw [solve_eq]
  refine bind_ok (forward_bounds ha hc (fun s hs i hi => ?_) hs) fun s hs => backward_bounds ha hc hs
  have hrow := RowOrder.rowAt_lt π hi
  rw [hp.entry_rowAt hi]
  show ∃ v, b.at s (Int64.ofNat (RowOrder.rowAt π i)) = .ok v
  rw [b.at_ofNat s (Nat.lt_trans hrow hn)]
  exact hb s hs _ hrow

theorem invert_bounds (ha : a.Readable (n * n) ok) (hp : p.Records π k) (hc : c.Usable (n * n) ok)
    (hs : ok s) : ∃ s', invert a p n c s = .ok s' ∧ ok s' := by
  rw [invert_eq]
  refine Loop.up_ok (fun _ => ok) (Nat.zero_le n) hs (fun j s _ hj hs => ?_) fun _ h => h
  have hcolumn : (c.along (· * n + j)).Usable n ok := hc.along fun i hi => place_lt hi hj
  refine bind_ok (forward_bounds ha hcolumn (fun s _ i hi => ?_) hs) fun s hs =>
    backward_bounds ha hcolumn hs
  rw [hp.entry_rowAt hi]
  exact ⟨_, rfl⟩

end Kernel

end PivotedLU
