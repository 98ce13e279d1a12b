import PivotedLU.Proofs.Flat.Checks
import PivotedLU.Proofs.Frame
import PivotedLU.Proofs.Stored.Checks

/-!
# What operations on a store may write

Every operation writes into the blocks of its output arguments at most, and adds none. Nothing is
asked of the arguments: they may be of the wrong size or lie outside of the store.
-/

namespace PivotedLU

variable {α β : Type} {s t u : Store α} {touched : Nat → Prop}

/-- `t` has as many blocks as `s` and differs from it at most in the touched ones. -/
structure Store.WrittenOnly (touched : Nat → Prop) (s t : Store α) : Prop where
  count : t.blocks.size = s.blocks.size
  block : ∀ b, ¬ touched b → t.block b = s.block b

namespace Store.WrittenOnly

theorem refl (touched : Nat → Prop) (s : Store α) : s.WrittenOnly touched s :=
  ⟨rfl, fun _ _ => rfl⟩

theorem mono {touched' : Nat → Prop} (h : s.WrittenOnly touched t) (himp : ∀ b, touched b → touched' b) :
    s.WrittenOnly touched' t :=
  ⟨h.count, fun b hb => h.block b fun hb' => hb (himp b hb')⟩

theorem trans (h : s.WrittenOnly touched t) (h' : t.WrittenOnly touched u) : s.WrittenOnly touched u :=
  ⟨h'.count.trans h.count, fun b hb => (h'.block b hb).trans (h.block b hb)⟩

theorem write {b i : Nat} {v : α} (h : s.WrittenOnly touched t) (hb : touched b)
    (hw : t.write b i v = .ok u) : s.WrittenOnly touched u := by
  obtain ⟨u', hu, -, hother⟩ := write_eq (lt_size_of_write hw) v
  obtain rfl : u' = u := Except.ok.inj (hu.symm.trans hw)
  have hcount : u'.blocks.size = t.blocks.size := by
    unfold Store.write at hw
    split at hw
    next =>
      split at hw
      next =>
        cases hw
        exact Array.size_modify
      next => cases hw
    next => cases hw
  refine ⟨hcount.trans h.count, fun b' hb' => ?_⟩
  have hne : b' ≠ b := fun heq => hb' (heq ▸ hb)
  rw [hother b' hne, h.block b' hb']

theorem commit {x : Except Fault (Store α)} (h : ∀ t, x = .ok t → s.WrittenOnly touched t) :
    s.WrittenOnly touched (s.commit x).2 := by
  cases x with
  | ok t => exact h t rfl
  | error f => exact refl touched s

end Store.WrittenOnly

/-! ## Windows -/

namespace Window

theorem cells_stable (w : Window) (s : Store α) : w.cells.Stable (s.WrittenOnly (· = w.block)) := by
  intro t i v u ht hw
  simp only [cells] at hw
  split at hw
  · exact ht.write rfl hw
  · cases hw

/-- A window that is not there has no cell to write. -/
theorem getD_stable (w : Option Window) (s : Store α) :
    (w.getD .empty).cells.Stable (s.WrittenOnly fun b => ∃ v ∈ w, b = v.block) := by
  cases w with
  | none =>
      intro t i v u _ hw
      simp [cells, empty] at hw
  | some w =>
      intro t i v u ht hw
      simp only [Option.getD_some, cells] at hw
      split at hw
      · exact ht.write ⟨w, rfl, rfl⟩ hw
      · cases hw

theorem eliminate_writes [Scalar α] (tol : α) (n : Nat) (w : Window) (s : Store α) :
    s.WrittenOnly (· = w.block) (w.eliminate tol n s).2 := by
  unfold eliminate
  split
  next => exact .refl _ s
  next e he =>
    have hkept := Kernel.decompose_stable (w.cells_stable s) (.refl _ s) he
    split
    · exact hkept
    · split <;> exact hkept

end Window

variable [Scalar α]

/-! ## Stored matrices and factors -/

namespace StoredMatrix

variable (tol : α) (m a b dst : Option StoredMatrix) (s : Store α)

theorem set_writes (m : StoredMatrix) (i j : Int64) (v : α) (s : Store α) :
    s.WrittenOnly (· = m.block) (m.set i j v s).2 := by
  unfold set
  split
  · exact .refl _ s
  · exact .commit fun t => (m.window s).cells_stable s s _ _ t (.refl _ s)

omit [Scalar α] in
theorem transposeInPlace_writes :
    s.WrittenOnly (fun k => ∃ d ∈ m, k = d.block) (transposeInPlace m s).2 := by
  unfold transposeInPlace
  split
  next => exact .refl _ s
  next d hd =>
    obtain ⟨hm, -⟩ := ((Check.isSquare_gives m).within _).of_ok hd
    refine .mono (.commit fun t ht => ?_) fun k hk => ⟨d, hm, hk⟩
    exact Kernel.transpose_stable ((d.window s).cells_stable s) (.refl _ s) ht

theorem multiplyInto_writes :
    s.WrittenOnly (fun k => ∃ d ∈ dst, k = d.block) (multiplyInto dst a b s).2 := by
  unfold multiplyInto
  split
  next => exact .refl _ s
  next d x y hcheck =>
    obtain ⟨hdst, -⟩ := (checkMultiplyInto_gives dst a b s).of_ok hcheck
    refine .mono (.commit fun t ht => ?_) fun k hk => ⟨d, hdst, hk⟩
    exact Kernel.product_stable ((d.window s).cells_stable s) (.refl _ s) ht

theorem factorizeInPlace_writes :
    s.WrittenOnly (fun k => ∃ d ∈ m, k = d.block) (factorizeInPlace tol m s).2 := by
  unfold factorizeInPlace
  split
  next => exact .refl _ s
  next d hd =>
    obtain ⟨hm, -⟩ := ((Check.isSquare_gives m).within _).of_ok hd
    have hkept := (d.window s).eliminate_writes tol d.rows s
    split
    next h =>
      rw [h] at hkept
      exact hkept.mono fun k hk => ⟨d, hm, hk⟩
    next h =>
      rw [h] at hkept
      exact hkept.mono fun k hk => ⟨d, hm, hk⟩

theorem determinantInPlace_writes :
    s.WrittenOnly (fun k => ∃ d ∈ m, k = d.block) (determinantInPlace tol m s).2 := by
  have hkept := factorizeInPlace_writes tol m s
  unfold determinantInPlace
  split
  next h =>
    rw [h] at hkept
    exact hkept
  next h =>
    rw [h] at hkept
    exact hkept

theorem inverseInPlace_writes : s.WrittenOnly
    (fun k => (∃ d ∈ a, k = d.block) ∨ ∃ d ∈ dst, k = d.block) (inverseInPlace tol a dst s).2 := by
  unfold inverseInPlace
  split
  next => exact .refl _ s
  next a' d hcheck =>
    obtain ⟨ha, hdst, -⟩ := (checkInverseInPlace_gives a dst s).of_ok hcheck
    have hkept : s.WrittenOnly (fun k => (∃ d ∈ a, k = d.block) ∨ ∃ d ∈ dst, k = d.block)
        (factorizeInPlace tol a s).2 := (factorizeInPlace_writes tol a s).mono fun _ hk => .inl hk
    rw [ha] at hkept
    split
    next h =>
      rw [h] at hkept
      rw [ha]
      exact hkept
    next f t h =>
      rw [h] at hkept
      rw [ha]
      refine hkept.trans (.mono (.commit fun u hu => ?_) fun k hk => .inr ⟨d, hdst, hk⟩)
      exact Kernel.invert_stable ((d.window t).cells_stable t) (.refl _ t) hu

end StoredMatrix

namespace StoredFactors

variable (f : StoredFactors) (s : Store α)

theorem solveInto_writes (x b : Option Window) :
    s.WrittenOnly (fun k => ∃ w ∈ x, k = w.block) (f.solveInto x b s).2 := by
  unfold solveInto
  split
  · exact .refl _ s
  · exact .commit fun t => Kernel.solve_stable (Window.getD_stable x s) (.refl _ s)

theorem inverseInto_writes (dst : Option StoredMatrix) :
    s.WrittenOnly (fun k => ∃ d ∈ dst, k = d.block) (f.inverseInto dst s).2 := by
  unfold inverseInto
  split
  next => exact .refl _ s
  next d hcheck =>
    obtain ⟨hdst, -⟩ := (checkInverseInto_gives f dst s).of_ok hcheck
    refine .mono (.commit fun t ht => ?_) fun k hk => ⟨d, hdst, hk⟩
    exact Kernel.invert_stable ((d.window s).cells_stable s) (.refl _ s) ht

end StoredFactors

/-! ## Flat buffers -/

namespace Flat

variable (name : Routine) (a ia x y r : Option Window) (n : Int64) (s : Store α)

omit [Scalar α] in
theorem block_gives : (block a n).Gives fun w => a = some w := by
  rcases block_cases a n with ⟨e, he, -⟩ | ⟨k, w, -, -, ha, -, hblock⟩
  · exact .inr ⟨e, he⟩
  · rw [hblock]
    exact Result.gives_ok ha

omit [Scalar α] in
theorem checkMultiply_gives : (checkMultiply x y r n).Gives fun c => r = some c.2.2 := by
  refine Result.Gives.within _ ((block_gives x n).bind fun x' _ => (block_gives y n).bind fun y' _ => ?_)
  refine (block_gives r n).bind fun r' hr => (Window.noAlias_gives _ _).bind fun _ _ => ?_
  exact Result.gives_ok hr

theorem eliminate_writes :
    s.WrittenOnly (fun k => ∃ w ∈ a, k = w.block) (eliminate name a n s).2 := by
  unfold eliminate
  split
  next => exact .refl _ s
  next w hw =>
    have ha := ((block_gives a n).within _).of_ok hw
    have hkept := w.eliminate_writes 0 n.toNatClampNeg s
    split
    next h =>
      rw [h] at hkept
      exact hkept.mono fun k hk => ⟨w, ha, hk⟩
    next h =>
      rw [h] at hkept
      exact hkept.mono fun k hk => ⟨w, ha, hk⟩

theorem determinant_writes :
    s.WrittenOnly (fun k => ∃ w ∈ a, k = w.block) (determinant a n s).2 := by
  have hkept := eliminate_writes .flatDeterminant a n s
  unfold determinant
  split
  next h =>
    rw [h] at hkept
    exact hkept
  next h =>
    rw [h] at hkept
    exact hkept

theorem inverse_writes : s.WrittenOnly
    (fun k => (∃ w ∈ a, k = w.block) ∨ ∃ w ∈ ia, k = w.block) (inverse a ia n s).2 := by
  unfold inverse
  split
  next => exact .refl _ s
  next w v hcheck =>
    obtain ⟨ha, hia, -⟩ := (checkInverse_gives a ia n).of_ok hcheck
    have hkept : s.WrittenOnly (fun k => (∃ w ∈ a, k = w.block) ∨ ∃ w ∈ ia, k = w.block)
        (eliminate .flatInverse a n s).2 := (eliminate_writes .flatInverse a n s).mono fun _ hk => .inl hk
    rw [ha] at hkept
    split
    next h =>
      rw [h] at hkept
      rw [ha]
      exact hkept
    next order t h =>
      rw [h] at hkept
      rw [ha]
      refine hkept.trans (.mono (.commit fun u hu => ?_) fun k hk => .inr ⟨v, hia, hk⟩)
      exact Kernel.invert_stable (v.cells_stable t) (.refl _ t) hu

omit [Scalar α] in
theorem transpose_writes :
    s.WrittenOnly (fun k => ∃ w ∈ a, k = w.block) (transpose a n s).2 := by
  unfold transpose
  split
  next => exact .refl _ s
  next w hw =>
    have ha := ((block_gives a n).within _).of_ok hw
    refine .mono (.commit fun t ht => ?_) fun k hk => ⟨w, ha, hk⟩
    exact Kernel.transpose_stable (w.cells_stable s) (.refl _ s) ht

theorem multiply_writes :
    s.WrittenOnly (fun k => ∃ w ∈ r, k = w.block) (multiply x y r n s).2 := by
  unfold multiply
  split
  next => exact .refl _ s
  next x' y' r' hcheck =>
    have hr := (checkMultiply_gives x y r n).of_ok hcheck
    refine .mono (.commit fun t ht => ?_) fun k hk => ⟨r', hr, hk⟩
    exact Kernel.multiply_stable (r'.cells_stable s) (.refl _ s) ht

end Flat

end PivotedLU
