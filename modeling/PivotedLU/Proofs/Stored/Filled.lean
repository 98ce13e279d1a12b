import PivotedLU.Proofs.Factors.Filled
import PivotedLU.Proofs.Stored.Answers
import PivotedLU.Proofs.Stored.Checks

/-!
# Filled matrices and factors in a store

The operations that change a store keep the size of every block in it, so what fills its block goes
on to do so, also where matrices and factors share one. On filled arguments none of them faults.
-/

namespace PivotedLU

variable {α β : Type} {s t u : Store α}

/-! ## Stores that grow -/

/-- Blocks with cells keep their number of cells. -/
def Store.Grows (s t : Store α) : Prop :=
  ∀ b, 0 < (s.block b).size → (t.block b).size = (s.block b).size

theorem Store.Grows.refl (s : Store α) : s.Grows s :=
  fun _ _ => rfl

theorem Store.Grows.trans (h : s.Grows t) (h' : t.Grows u) : s.Grows u := by
  intro b hb
  have hsize := h b hb
  rw [h' b (hsize ▸ hb), hsize]

theorem Store.ChangedOnly.grows {touched : Nat → Nat → Prop} (h : s.ChangedOnly touched t) : s.Grows t :=
  fun b _ => (h b).size

theorem Store.grows_alloc (s : Store α) (cells : Array α) : s.Grows (s.alloc cells).2 := by
  intro b hb
  rw [block_alloc_of_lt cells (lt_blocks_of_lt_size hb)]

theorem Window.Inside.grow {w : Window} (h : w.Inside s) (hst : s.Grows t) : w.Inside t := by
  unfold Inside at h ⊢
  by_cases hb : 0 < (s.block w.block).size
  · rwa [hst _ hb]
  · omega

theorem Window.inside_alloc (s : Store α) (cells : Array α) :
    (⟨s.blocks.size, 0, cells.size⟩ : Window).Inside (s.alloc cells).2 := by
  simp [Inside, Store.block_alloc]

/-- The matrix is filled as it stands in the store. -/
def StoredMatrix.Fills (m : StoredMatrix) (s : Store α) : Prop :=
  (m.view s).Filled

/-- The factors are filled as they stand in the store. -/
def StoredFactors.Fills (f : StoredFactors) (s : Store α) : Prop :=
  (f.view s).Filled

theorem StoredMatrix.Fills.grow {m : StoredMatrix} (h : m.Fills s) (hst : s.Grows t) : m.Fills t := by
  have hsize : (s.block m.block).size = m.rows * m.cols := h.size
  refine ⟨h.fits, (hst m.block ?_).trans hsize⟩
  rw [hsize]
  exact Nat.mul_pos h.fits.rows_pos h.fits.cols_pos

theorem StoredFactors.Fills.grow {f : StoredFactors} (h : f.Fills s) (hst : s.Grows t) : f.Fills t := by
  have hsize : (s.block f.block).size = f.n * f.n := h.size
  refine ⟨h.fits, (hst f.block ?_).trans hsize, h.order_size, h.order_valid⟩
  rw [hsize]
  exact Nat.mul_pos h.fits.rows_pos h.fits.rows_pos

theorem Store.fills_keep {d : Dense α} (h : d.Filled) : (s.keep d).1.Fills (s.keep d).2 := by
  rw [StoredMatrix.Fills, view_keep]
  exact h

theorem Store.fills_keepFactors {f : Factors α} (h : f.Filled) :
    (s.keepFactors f).1.Fills (s.keepFactors f).2 := by
  rw [StoredFactors.Fills, view_keepFactors]
  exact h

/-! ## Operations without faults -/

/-- The operation gave a value with the property or an error of the domain, and wrote into the
touched blocks only. -/
structure Store.Served (s : Store α) (touched : Nat → Prop) (o : Result β × Store α)
    (post : β → Store α → Prop) : Prop where
  gives : o.1.Gives (post · o.2)
  kept : s.ChangedOnly (fun b _ => touched b) o.2

theorem Store.served_error {touched : Nat → Prop} {post : β → Store α → Prop} (e : Error) :
    s.Served touched (.error (.error e), s) post :=
  ⟨.inr ⟨e, rfl⟩, .refl _ s⟩

theorem Store.served_commit {touched : Nat → Prop} {x : Except Fault (Store α)} {w : Window}
    (h : ∃ t, x = .ok t ∧ s.ChangedOnly w.Covers t) (hw : touched w.block) :
    s.Served touched (s.commit x) fun _ _ => True := by
  obtain ⟨t, rfl, hkept⟩ := h
  exact ⟨Result.gives_ok trivial, hkept.mono fun _ _ hcovers => hcovers.1 ▸ hw⟩

variable [Scalar α]

namespace StoredMatrix

variable {m d : StoredMatrix} {a b dst : Option StoredMatrix}

theorem Fills.usable (h : m.Fills s) : (m.window s).cells.Usable (m.rows * m.cols)
    (s.ChangedOnly ((m.window s).take (m.rows * m.cols)).Covers) :=
  ((m.window s).cells_lawful (Window.inside_whole s m.block) (Nat.le_of_eq h.size.symm)).usable

theorem Fills.readable (h : m.Fills s) (touched : Nat → Nat → Prop) :
    Reader.Readable (m.window s).cells.read (m.rows * m.cols) (s.ChangedOnly touched) :=
  Window.readable (Window.inside_whole s m.block) (Nat.le_of_eq h.size.symm) touched

omit [Scalar α] in
theorem Fills.cols_eq_rows (h : m.Fills s) (hsquare : m.shape.rows = m.shape.cols) : m.cols = m.rows :=
  Dense.Filled.cols_eq_rows h hsquare

theorem Fills.set_served (h : m.Fills s) (i j : Int64) (v : α) :
    s.Served (· = m.block) (m.set i j v s) fun _ _ => True := by
  unfold set
  rcases Dense.locateSet_gives m.rows m.cols m.strict i j v with ⟨k, hk, hlt⟩ | ⟨e, he⟩
  · rw [hk]
    exact Store.served_commit (h.usable.write (.refl _ s) hlt v) rfl
  · rw [he]
    exact Store.served_error e

theorem transposeInPlace_served (ha : ∀ m ∈ a, m.Fills s) :
    s.Served (fun k => ∃ m ∈ a, k = m.block) (transposeInPlace a s) fun _ _ => True := by
  unfold transposeInPlace
  rcases (Check.isSquare_gives a).within (.routine .transpose) with ⟨m, hm, hsome, hsquare⟩ | ⟨e, he⟩
  · have hfills : m.Fills s := ha m hsome
    have hcells := hfills.usable
    rw [hfills.cols_eq_rows hsquare] at hcells
    rw [Result.of, hm]
    exact Store.served_commit (Kernel.transpose_bounds hcells (.refl _ s)) ⟨m, hsome, rfl⟩
  · rw [Result.of, he]
    exact Store.served_error e

theorem multiplyInto_served (hdst : ∀ m ∈ dst, m.Fills s) (ha : ∀ m ∈ a, m.Fills s)
    (hb : ∀ m ∈ b, m.Fills s) :
    s.Served (fun k => ∃ m ∈ dst, k = m.block) (multiplyInto dst a b s) fun _ _ => True := by
  unfold multiplyInto
  rcases checkMultiplyInto_gives dst a b s with ⟨⟨r, x, y⟩, hc, hr, hx, hy, hinner, hrows, hcols, -⟩ | ⟨e, he⟩
  · rw [hc]
    have hx := ha x hx
    have hy := hb y hy
    have hcells := (hdst r hr).usable
    have hinner : x.cols = y.rows := (ofNat_inj hx.fits.cols_lt hy.fits.rows_lt).mp hinner
    have hread := hy.readable ((r.window s).take (x.rows * y.cols)).Covers
    dsimp only at hrows hcols ⊢
    rw [hrows, hcols] at hcells
    rw [← hinner] at hread
    exact Store.served_commit (Kernel.product_bounds (hx.readable _) hread hcells (.refl _ s)) ⟨r, hr, rfl⟩
  · rw [he]
    exact Store.served_error e

/-! ### Factors in place -/

theorem factorizeInPlace_served (tol : α) (ha : ∀ m ∈ a, m.Fills s) :
    s.Served (fun k => ∃ m ∈ a, k = m.block) (factorizeInPlace tol a s) fun f t =>
      f.Fills t ∧ ∃ m ∈ a, f.n = m.rows ∧ f.block = m.block := by
  unfold factorizeInPlace
  rcases (Check.isSquare_gives a).within (.routine .factorize) with ⟨m, hm, hsome, hsquare⟩ | ⟨e, he⟩
  · have hfills : m.Fills s := ha m hsome
    have hcols : m.cols = m.rows := hfills.cols_eq_rows hsquare
    have hsize : (s.block m.block).size = m.rows * m.cols := hfills.size
    have hfits : Fits m.rows m.cols := hfills.fits
    rw [hcols] at hsize hfits
    obtain ⟨e, π, k, hend, hkept, hcases⟩ := Window.eliminate_cases
      (Window.inside_whole s m.block) (Nat.le_of_eq hsize.symm) tol
    have hblock : s.ChangedOnly (fun k _ => ∃ m ∈ a, k = m.block) e.state :=
      hkept.mono fun b _ hcovers => ⟨m, hsome, hcovers.1⟩
    rw [Result.of, hm]
    rcases hcases with ⟨hstopped, helim⟩ | ⟨-, column, helim⟩
    · have htable := hend.table
      rw [hstopped] at htable
      dsimp only [window]
      rw [helim]
      refine ⟨Result.gives_ok ⟨⟨hfits, (hkept m.block).size.trans hsize, hend.order.size, ?_⟩,
        m, hsome, rfl, rfl⟩, hblock⟩
      exact hfits.isValid_of_records hend.order htable.exchanges_le
    · dsimp only [window]
      rw [helim]
      exact ⟨.inr ⟨_, rfl⟩, hblock⟩
  · rw [Result.of, he]
    exact Store.served_error e

theorem determinantInPlace_served (tol : α) (ha : ∀ m ∈ a, m.Fills s) :
    s.Served (fun k => ∃ m ∈ a, k = m.block) (determinantInPlace tol a s) fun _ _ => True := by
  have h := factorizeInPlace_served tol ha
  unfold determinantInPlace
  generalize factorizeInPlace tol a s = o at h ⊢
  obtain ⟨r, t⟩ := o
  rcases h.gives with ⟨f, hr, hfills, -⟩ | ⟨e, hr⟩
  · obtain ⟨π, k, hp⟩ := hfills.exists_records
    have hread := Window.readable (Window.inside_whole t f.block) (Nat.le_of_eq hfills.size.symm)
      fun _ _ => False
    obtain ⟨v, hv⟩ := Kernel.determinant_bounds hfills.fits.rows_pos hread (.refl _ t) hp
    dsimp only at hr
    rw [hr]
    exact ⟨Result.gives_ofFaulty ⟨v, hv, trivial⟩, h.kept⟩
  · dsimp only at hr
    rw [hr]
    exact ⟨.inr ⟨_, rfl⟩, h.kept⟩

end StoredMatrix

/-! ## Factors -/

namespace StoredFactors

variable {f : StoredFactors} {d : StoredMatrix} {x b : Option Window}

theorem Fills.readable (h : f.Fills s) (touched : Nat → Nat → Prop) :
    Reader.Readable (Window.whole s f.block).cells.read (f.n * f.n) (s.ChangedOnly touched) :=
  Window.readable (Window.inside_whole s f.block) (Nat.le_of_eq h.size.symm) touched

/-- Factors are inverted into a matrix of their size, whichever block that fills. -/
theorem Fills.invert (h : f.Fills s) (hd : d.Fills s) (hrows : d.rows = f.n) (hcols : d.cols = f.n) :
    ∃ t, Kernel.invert (Window.whole s f.block).cells.read f.order f.n (d.window s).cells s = .ok t ∧
      s.ChangedOnly ((d.window s).take (f.n * f.n)).Covers t := by
  obtain ⟨π, k, hp⟩ := h.exists_records
  have hcells := hd.usable
  rw [hrows, hcols] at hcells
  exact Kernel.invert_bounds (h.readable _) hp hcells (.refl _ s)

theorem Fills.inverseInto_served (h : f.Fills s) {dst : Option StoredMatrix} (hdst : ∀ m ∈ dst, m.Fills s) :
    s.Served (fun k => ∃ m ∈ dst, k = m.block) (f.inverseInto dst s) fun _ _ => True := by
  unfold inverseInto
  rcases checkInverseInto_gives f dst s with ⟨d, hc, hsome, hsquare, hrows, -⟩ | ⟨e, he⟩
  · have hd := hdst d hsome
    have hcols : d.cols = f.n := (hd.cols_eq_rows hsquare).trans hrows
    rw [hc]
    exact Store.served_commit (h.invert hd hrows hcols) ⟨d, hsome, rfl⟩
  · rw [he]
    exact Store.served_error e

theorem Fills.solveInto_served (h : f.Fills s) (hx : ∀ w ∈ x, w.Inside s) (hb : ∀ w ∈ b, w.Inside s) :
    s.Served (fun k => ∃ w ∈ x, k = w.block) (f.solveInto x b s) fun _ _ => True := by
  unfold solveInto
  rcases checkSolveInto_gives f x b with ⟨c, hc, u, v, rfl, rfl, hv, hu, -⟩ | ⟨e, he⟩
  · have hn : f.n < 2 ^ 63 := h.fits.rows_lt
    rw [Int64.toInt_ofNat_of_lt hn, Int.ofNat_inj] at hv hu
    obtain ⟨π, k, hp⟩ := h.exists_records
    have hcells := (u.cells_lawful (hx u rfl) (Nat.le_of_eq hu.symm)).usable
    have hrhs := Window.readable (hb v rfl) (Nat.le_of_eq hv.symm) (u.take f.n).Covers
    rw [hc]
    exact Store.served_commit
      (Kernel.solve_bounds (h.readable _) hrhs hp hn hcells (.refl _ s)) ⟨u, rfl, rfl⟩
  · rw [he]
    exact Store.served_error e

end StoredFactors

theorem StoredMatrix.inverseInPlace_served {a dst : Option StoredMatrix} (tol : α)
    (ha : ∀ m ∈ a, m.Fills s) (hdst : ∀ m ∈ dst, m.Fills s) :
    s.Served (fun k => (∃ m ∈ a, k = m.block) ∨ ∃ m ∈ dst, k = m.block) (inverseInPlace tol a dst s)
      fun _ _ => True := by
  unfold inverseInPlace
  rcases checkInverseInPlace_gives a dst s with ⟨⟨m, d⟩, hc, hm, hd, hsquare, hshape, -⟩ | ⟨e, he⟩
  · dsimp only at hm hd hsquare hshape
    subst hm hd
    rw [hc]
    dsimp only
    have h := factorizeInPlace_served (a := some m) tol ha
    generalize factorizeInPlace tol (some m) s = o at h ⊢
    obtain ⟨r, t⟩ := o
    have hm := ha m rfl
    have hd := hdst d rfl
    have hleft : ∀ b (_ : Nat), (∃ m' ∈ some m, b = m'.block) →
        (∃ m' ∈ some m, b = m'.block) ∨ ∃ m' ∈ some d, b = m'.block := fun _ _ hb => .inl hb
    rcases h.gives with ⟨f, hr, hfills, m', hm', hn, -⟩ | ⟨e, hr⟩
    · -- The factors are read from the store in which they were left.
      obtain rfl : m = m' := Option.some.inj hm'
      obtain ⟨hrows, hcols⟩ := Shape.mk.inj hshape
      have hrows : m.rows = d.rows := (ofNat_inj hm.fits.rows_lt hd.fits.rows_lt).mp hrows
      have hcols : m.cols = d.cols := (ofNat_inj hm.fits.cols_lt hd.fits.cols_lt).mp hcols
      have hsquare : m.cols = m.rows := hm.cols_eq_rows hsquare
      obtain ⟨u, hu, hkept⟩ := hfills.invert (hd.grow h.kept.grows) (hrows.symm.trans hn.symm)
        (hcols.symm.trans (hsquare.trans hn.symm))
      dsimp only at hr
      rw [hr]
      dsimp only
      rw [hu]
      refine ⟨Result.gives_ok trivial, h.kept.trans hkept hleft ?_⟩
      exact fun b k hcovers => .inr ⟨d, rfl, hcovers.1⟩
    · dsimp only at hr
      rw [hr]
      exact ⟨.inr ⟨_, rfl⟩, h.kept.mono hleft⟩
  · rw [he]
    exact Store.served_error e

end PivotedLU
