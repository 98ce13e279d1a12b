import PivotedLU.Proofs.Flat.Checks
import PivotedLU.Proofs.Stored.Copies

/-!
# Flat buffers that share cells

An output is refused exactly when its block has a cell in common with the block of an input. Every
other way in which buffers can overlap is harmless: the kernels stay inside the blocks, and what
they write is what they would compute on copies.
-/

namespace PivotedLU.Flat

variable {α : Type} {n : Nat} {m : Int64} {s : Store α}

/-- A window whose cells are all there and in which there is room for a block. -/
structure Buffer (s : Store α) (m : Int64) where
  window : Window
  inside : window.Inside s
  accepted : Check.holdsSquare (some window.length) m = .ok ()

/-- The cells of the block at the start of a buffer. -/
def Buffer.area (b : Buffer s m) : Window :=
  Flat.area b.window m

theorem Buffer.room (b : Buffer s (Int64.ofNat n)) (hfits : Fits n n) : n * n ≤ b.window.length :=
  Check.le_of_holdsSquare hfits b.accepted

theorem Buffer.area_eq (b : Buffer s (Int64.ofNat n)) (hfits : Fits n n) :
    b.area = b.window.take (n * n) :=
  Flat.area_eq hfits b.window

theorem Buffer.exists_ofNat (b : Buffer s m) : ∃ n, m = Int64.ofNat n ∧ Fits n n := by
  obtain ⟨n, hm, hfits, -⟩ := Check.exists_of_holdsSquare b.accepted
  exact ⟨n, hm, hfits⟩

/-- The operation found a cell of an input in its output. -/
def Aliased {β : Type} (r : Result β) : Prop :=
  ∃ path, r = .error (.error ⟨path, .aliasedOutput⟩)

variable [Scalar α]

/-! ## Products -/

/-- The block of `r` holds the product of copies of the inputs; no other cell changed. -/
structure Multiplied (x y r : Buffer s m) (o : Result Unit × Store α) : Prop where
  went_through : o.1 = .ok ()
  product : ∀ out : Array α, out.size = r.area.length →
    Kernel.multiply (Reader.fixed (x.area.contents s)) (Reader.fixed (y.area.contents s)) Cells.array
      m.toNatClampNeg out = .ok (r.area.contents o.2)
  kept : s.ChangedOnly r.area.Covers o.2

theorem multiply_shares (x y r : Buffer s m) (h : r.area.Shares x.area ∨ r.area.Shares y.area) :
    Aliased (multiply (some x.window) (some y.window) (some r.window) m s).1 := by
  obtain ⟨n, rfl, hfits⟩ := x.exists_ofNat
  have hcheck := checkMultiply_shares hfits (x.room hfits) (y.room hfits) (r.room hfits) h
  rw [multiply, hcheck]
  exact ⟨_, rfl⟩

theorem multiply_apart (x y r : Buffer s m) (hx : ¬ r.area.Shares x.area)
    (hy : ¬ r.area.Shares y.area) :
    Multiplied x y r (multiply (some x.window) (some y.window) (some r.window) m s) := by
  obtain ⟨n, rfl, hfits⟩ := x.exists_ofNat
  have hcheck := checkMultiply_apart hfits (x.room hfits) (y.room hfits) (r.room hfits) hx hy
  rw [← Window.overlaps_iff, Bool.not_eq_true, r.area_eq hfits] at hx hy
  rw [x.area_eq hfits] at hx
  rw [y.area_eq hfits] at hy
  obtain ⟨t, ht, hkept, hproduct⟩ := Window.multiply_copies x.inside y.inside r.inside
    (x.room hfits) (y.room hfits) (r.room hfits) hx hy
  have hgoes : multiply (some x.window) (some y.window) (some r.window) (Int64.ofNat n) s =
      (.ok (), t) := by
    simp only [multiply, hcheck, Int64.toNatClampNeg_ofNat_of_lt hfits.rows_lt, ht, Store.commit]
  rw [hgoes]
  refine ⟨rfl, ?_, r.area_eq hfits ▸ hkept⟩
  rw [x.area_eq hfits, y.area_eq hfits, r.area_eq hfits,
    Int64.toNatClampNeg_ofNat_of_lt hfits.rows_lt]
  exact hproduct

/-! ## Inverses -/

/-- The block of `a` holds what the elimination `e` of a copy left. If it went through, the block of
`ia` holds the inverse that a copy of the factors gives. No other cell changed. -/
structure Inverted (a ia : Buffer s m) (e : Kernel.Elimination (Array α))
    (o : Result Unit × Store α) : Prop where
  eliminated : Kernel.decompose Cells.array m.toNatClampNeg (RowOrder.identity m.toNatClampNeg) 0
    (a.area.contents s) = .ok e
  outcome : (e.stopped = none ∧ o.1 = .ok ()) ∨
    (e.stopped ≠ none ∧ ∃ path, o.1 = .error (.error ⟨path, .singular⟩))
  factors : a.area.contents o.2 = e.state
  inverse : e.stopped = none → ∀ out : Array α, out.size = ia.area.length →
    Kernel.invert (Reader.fixed e.state) e.order m.toNatClampNeg Cells.array out =
      .ok (ia.area.contents o.2)
  kept : s.ChangedOnly (fun b k => a.area.Covers b k ∨ e.stopped = none ∧ ia.area.Covers b k) o.2

theorem inverse_shares (a ia : Buffer s m) (h : ia.area.Shares a.area) :
    Aliased (inverse (some a.window) (some ia.window) m s).1 := by
  obtain ⟨n, rfl, hfits⟩ := a.exists_ofNat
  have hcheck := checkInverse_shares hfits (a.room hfits) (ia.room hfits) h
  rw [inverse, hcheck]
  exact ⟨_, rfl⟩

theorem inverse_apart (a ia : Buffer s m) (h : ¬ ia.area.Shares a.area) :
    ∃ e, Inverted a ia e (inverse (some a.window) (some ia.window) m s) := by
  obtain ⟨n, rfl, hfits⟩ := a.exists_ofNat
  have hn := Int64.toNatClampNeg_ofNat_of_lt hfits.rows_lt
  have hcheck := checkInverse_apart hfits (a.room hfits) (ia.room hfits) h
  rw [← Window.overlaps_iff, Bool.not_eq_true, ia.area_eq hfits, a.area_eq hfits] at h
  obtain ⟨e, π, k, he, hp, t, hcopy, hkept, hcases⟩ :=
    Window.eliminate_copy a.inside (a.room hfits) (0 : α)
  have helim := eliminate_eq .flatInverse hfits (a.room hfits) s
  refine ⟨e, ?_⟩
  rcases hcases with ⟨hstopped, hgoes⟩ | ⟨hstopped, column, hstops⟩
  · rw [hgoes] at helim
    obtain ⟨u, hu, hkept', hinverse⟩ := Window.invert_copy (a.inside.of_changedOnly hkept)
      (ia.inside.of_changedOnly hkept) (a.room hfits) (ia.room hfits) h hp hfits.rows_lt
    have hfactors : a.window.copy (n * n) u = e.state :=
      (Window.copy_of_apart (a.inside.of_changedOnly hkept) (a.room hfits) h hkept').trans hcopy
    have hdone : inverse (some a.window) (some ia.window) (Int64.ofNat n) s = (.ok (), u) := by
      simp only [inverse, hcheck, helim, hn, hu, Store.commit, Result.within]
    rw [hcopy] at hinverse
    rw [hdone]
    refine ⟨?_, .inl ⟨hstopped, rfl⟩, ?_, fun _ => ?_, ?_⟩
    · rw [a.area_eq hfits, hn]
      exact he
    · rw [a.area_eq hfits]
      exact hfactors
    · rw [ia.area_eq hfits, hn]
      exact hinverse
    · rw [a.area_eq hfits, ia.area_eq hfits]
      exact hkept.trans hkept' (fun _ _ => .inl) fun _ _ hk => .inr ⟨hstopped, hk⟩
  · rw [hstops] at helim
    have hdone : inverse (some a.window) (some ia.window) (Int64.ofNat n) s =
        (.error (.error ⟨[.routine .flatInverse, .column (column.elim (-1) Int.ofNat)], .singular⟩), t) := by
      simp only [inverse, hcheck, helim]
      rfl
    rw [hdone]
    refine ⟨?_, .inr ⟨hstopped, _, rfl⟩, ?_, fun h => absurd h hstopped, ?_⟩
    · rw [a.area_eq hfits, hn]
      exact he
    · rw [a.area_eq hfits]
      exact hcopy
    · rw [a.area_eq hfits]
      exact hkept.trans (.refl _ t) (fun _ _ => .inl) fun _ _ => .inl

/-! ## Aliasing -/

theorem Multiplied.not_aliased {x y r : Buffer s m} {o : Result Unit × Store α}
    (h : Multiplied x y r o) : ¬ Aliased o.1 := by
  rintro ⟨path, haliased⟩
  cases h.went_through.symm.trans haliased

theorem Inverted.not_aliased {a ia : Buffer s m} {e : Kernel.Elimination (Array α)}
    {o : Result Unit × Store α} (h : Inverted a ia e o) : ¬ Aliased o.1 := by
  rintro ⟨path, haliased⟩
  rcases h.outcome with ⟨-, hok⟩ | ⟨-, _, hsingular⟩
  · cases hok.symm.trans haliased
  · cases hsingular.symm.trans haliased

/-- A product and an inverse are refused for their output exactly when it shares a cell with an input.
Otherwise the output holds what is computed on copies of what the inputs held before, and nothing
else changed, except that the matrix that is inverted holds its factors. -/
theorem aliasing_exact (s : Store α) (m : Int64) (x y r a ia : Buffer s m) :
    (Aliased (multiply (some x.window) (some y.window) (some r.window) m s).1 ↔
      r.area.Shares x.area ∨ r.area.Shares y.area) ∧
    (¬ Aliased (multiply (some x.window) (some y.window) (some r.window) m s).1 →
      Multiplied x y r (multiply (some x.window) (some y.window) (some r.window) m s)) ∧
    (Aliased (inverse (some a.window) (some ia.window) m s).1 ↔ ia.area.Shares a.area) ∧
    (¬ Aliased (inverse (some a.window) (some ia.window) m s).1 →
      ∃ e, Inverted a ia e (inverse (some a.window) (some ia.window) m s)) := by
  refine ⟨⟨fun h => ?_, multiply_shares x y r⟩, fun h => ?_, ⟨fun h => ?_, inverse_shares a ia⟩,
    fun h => inverse_apart a ia fun hshares => h (inverse_shares a ia hshares)⟩
  · by_contra hapart
    obtain ⟨hx, hy⟩ := not_or.mp hapart
    exact (multiply_apart x y r hx hy).not_aliased h
  · have hx : ¬ r.area.Shares x.area := fun hshares => h (multiply_shares x y r (.inl hshares))
    have hy : ¬ r.area.Shares y.area := fun hshares => h (multiply_shares x y r (.inr hshares))
    exact multiply_apart x y r hx hy
  · by_contra hapart
    obtain ⟨e, he⟩ := inverse_apart a ia hapart
    exact he.not_aliased h

/-- One block of twelve cells, for windows that overlap. -/
def crowded : Store Float :=
  ⟨#[#[1, 2, 3, 4, 5, 6, 0, 0, 0, 0, 7, 8]]⟩

/-- Inputs that overlap each other, and reach into the output behind their blocks; and an output that
shares cells with an input. -/
theorem aliasing_exact_overlapping : ∃ x y r : Buffer crowded 2,
    x.window = ⟨0, 0, 12⟩ ∧ y.window = ⟨0, 2, 10⟩ ∧ r.window = ⟨0, 6, 6⟩ ∧
    Multiplied x y r (multiply (some x.window) (some y.window) (some r.window) 2 crowded) ∧
    Aliased (multiply (some x.window) (some r.window) (some y.window) 2 crowded).1 ∧
    (∃ e, Inverted x r e (inverse (some x.window) (some r.window) 2 crowded)) ∧
    Aliased (inverse (some x.window) (some y.window) 2 crowded).1 ∧
    (multiply (some x.window) (some y.window) (some r.window) 2 crowded).2.blocks =
      #[#[1, 2, 3, 4, 5, 6, 13, 16, 29, 36, 7, 8]] := by
  obtain ⟨x, hx⟩ : ∃ x : Buffer crowded 2, x.window = ⟨0, 0, 12⟩ :=
    ⟨⟨⟨0, 0, 12⟩, Nat.le_refl 12, rfl⟩, rfl⟩
  obtain ⟨y, hy⟩ : ∃ y : Buffer crowded 2, y.window = ⟨0, 2, 10⟩ :=
    ⟨⟨⟨0, 2, 10⟩, Nat.le_refl 12, rfl⟩, rfl⟩
  obtain ⟨r, hr⟩ : ∃ r : Buffer crowded 2, r.window = ⟨0, 6, 6⟩ :=
    ⟨⟨⟨0, 6, 6⟩, Nat.le_refl 12, rfl⟩, rfl⟩
  obtain ⟨hproduct, hmultiplied, hinverse, hinverted⟩ := aliasing_exact crowded 2 x y r x r
  obtain ⟨hproduct', -, hinverse', -⟩ := aliasing_exact crowded 2 x r y x y
  have hrx : ¬ r.area.Shares x.area := by
    rw [← Window.overlaps_iff, Buffer.area, Buffer.area, hr, hx]
    decide
  have hry : ¬ r.area.Shares y.area := by
    rw [← Window.overlaps_iff, Buffer.area, Buffer.area, hr, hy]
    decide
  have hyx : y.area.Shares x.area := by
    rw [← Window.overlaps_iff, Buffer.area, Buffer.area, hy, hx]
    decide
  refine ⟨x, y, r, hx, hy, hr, hmultiplied ?_, hproduct'.mpr (.inl hyx),
    hinverted (mt hinverse.mp hrx), hinverse'.mpr hyx, ?_⟩
  · exact fun h => (hproduct.mp h).elim hrx hry
  · rw [hx, hy, hr]
    decide +kernel

end PivotedLU.Flat
