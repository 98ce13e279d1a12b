import PivotedLU.Proofs.Product
import PivotedLU.Proofs.Stored.Answers

/-!
# Kernels on windows and on copies

A kernel that runs in a store computes what it computes on copies of the cells it starts from, as
long as the cells it writes are not among those it still reads. Inputs may share cells.
-/

namespace PivotedLU.Window

variable {α : Type} [Scalar α] {n k size i : Nat} {s t : Store α} {w x y r : Window}

/-! ## Copies -/

/-- What the first cells of a window hold. -/
def copy (w : Window) (size : Nat) (s : Store α) : Array α :=
  (w.take size).contents s

omit [Scalar α] in
theorem Inside.take (hin : w.Inside s) (hsize : size ≤ w.length) : (w.take size).Inside s :=
  Nat.le_trans (Nat.add_le_add_left hsize w.offset) hin

omit [Scalar α] in
theorem size_copy (hin : w.Inside s) (hsize : size ≤ w.length) : (w.copy size s).size = size :=
  size_contents (hin.take hsize)

theorem cellAt_copy (hin : w.Inside s) (hsize : size ≤ w.length) (hi : i < size) :
    PivotedLU.cellAt (w.copy size s) i = w.cellAt s i :=
  cellAt_contents (hin.take hsize) hi

theorem copy_eq {a : Array α} (hin : w.Inside s) (hroom : n * n ≤ w.length) (hsize : a.size = n * n)
    (h : ∀ r < n, ∀ c < n, w.cellAt s (r * n + c) = PivotedLU.cellAt a (r * n + c)) :
    w.copy (n * n) s = a := by
  refine contents_eq (hin.take hroom) hsize fun i hi => ?_
  obtain ⟨r, hr, c, hc, rfl⟩ := exists_place hi
  exact h r hr c hc

theorem copy_of_apart (hin : w.Inside s) (hsize : size ≤ w.length)
    (hapart : x.overlaps (w.take size) = false) (h : s.ChangedOnly x.Covers t) :
    w.copy size t = w.copy size s := by
  refine contents_eq ((hin.take hsize).of_changedOnly h) (size_copy hin hsize) fun i hi => ?_
  rw [cellAt_copy hin hsize hi]
  exact cellAt_of_apart hapart h hi

/-- The table in the first cells of a window. -/
def tableAt (w : Window) (s : Store α) (n r c : Nat) : α :=
  w.cellAt s (r * n + c)

theorem holds_tableAt (hin : w.Inside s) (hroom : n * n ≤ w.length) : w.Holds s n (w.tableAt s n) :=
  ⟨hin, hroom, fun _ _ _ _ => rfl⟩

theorem copy_shows {σ : Type} (hin : w.Inside s) (hroom : n * n ≤ w.length) (ok : σ → Prop) :
    (Reader.fixed (w.copy (n * n) s)).Shows n n ok (w.tableAt s n) := by
  intro state r c _ hr hc
  have hlt : r * n + c < (w.copy (n * n) s).size := by
    rw [size_copy hin hroom]
    exact place_lt hr hc
  rw [Reader.fixed_eq hlt, cellAt_copy hin hroom (place_lt hr hc), tableAt]

/-! ## Products -/

theorem multiply_copies (hx : x.Inside s) (hy : y.Inside s) (hr : r.Inside s)
    (hroomx : n * n ≤ x.length) (hroomy : n * n ≤ y.length) (hroomr : n * n ≤ r.length)
    (hapartx : (r.take (n * n)).overlaps (x.take (n * n)) = false)
    (haparty : (r.take (n * n)).overlaps (y.take (n * n)) = false) :
    ∃ t, Kernel.multiply x.cells.read y.cells.read r.cells n s = .ok t ∧
      s.ChangedOnly (r.take (n * n)).Covers t ∧
      ∀ out : Array α, out.size = n * n →
        Kernel.multiply (Reader.fixed (x.copy (n * n) s)) (Reader.fixed (y.copy (n * n) s))
          Cells.array n out = .ok (r.copy (n * n) t) := by
  obtain ⟨t, ht, hkept, hcells⟩ := Kernel.rectangular_ok (r.cells_lawful hr hroomr)
    ((holds_tableAt hx hroomx).shows_apart hapartx) ((holds_tableAt hy hroomy).shows_apart haparty)
    (.refl _ s)
  refine ⟨t, ht, hkept, fun out hout => ?_⟩
  obtain ⟨u, hu, hsize, hcells'⟩ := Kernel.rectangular_ok
    (Cells.array_lawful (Nat.le_of_eq hout.symm)) (copy_shows hx hroomx _) (copy_shows hy hroomy _)
    (.refl _ out)
  have hcopy : r.copy (n * n) t = u := by
    refine copy_eq (hr.of_changedOnly hkept) hroomr (hsize.size.trans hout) fun i hi j hj => ?_
    rw [hcells i hi j hj, hcells' i hi j hj]
  rw [hcopy]
  exact hu

/-! ## Elimination -/

/-- A run in a window leaves what a run on a copy leaves, and stops where it stops. -/
theorem eliminate_copy (hin : w.Inside s) (hroom : n * n ≤ w.length) (tol : α) :
    ∃ e, ∃ (π : Equiv.Perm (Fin n)) (k : Nat),
      Kernel.decompose Cells.array n (RowOrder.identity n) tol (w.copy (n * n) s) = .ok e ∧
      e.order.Records π k ∧ ∃ t, w.copy (n * n) t = e.state ∧
        s.ChangedOnly (w.take (n * n)).Covers t ∧
        ((e.stopped = none ∧ w.eliminate tol n s = (.ok e.order, t)) ∨
          (e.stopped ≠ none ∧ ∃ column, w.eliminate tol n s = (.error (singularAt column), t))) := by
  obtain ⟨e', π', k', hend', hkept, hcases⟩ := w.eliminate_cases hin hroom tol
  have hsize := size_copy hin hroom
  obtain ⟨e, π, k, he, hsize', hend⟩ := Kernel.decompose_ok
    (Cells.array_lawful (Nat.le_of_eq hsize.symm)) tol (.refl _ _) (RowOrder.size_identity n)
    fun r hr c hc => cellAt_copy hin hroom (place_lt hr hc)
  obtain ⟨hstopped, horder, hcells⟩ := hend'.unique hend
  rw [hstopped, horder] at hcases
  refine ⟨e, π, k, he, hend.order, e'.state, ?_, hkept, hcases⟩
  exact copy_eq (hin.of_changedOnly hkept) hroom (hsize'.size.trans hsize) hcells

/-! ## Inverses -/

theorem invert_copy {p : RowOrder} {π : Equiv.Perm (Fin n)} (hw : w.Inside s) (hx : x.Inside s)
    (hroomw : n * n ≤ w.length) (hroomx : n * n ≤ x.length)
    (hapart : (x.take (n * n)).overlaps (w.take (n * n)) = false) (hp : p.Records π k)
    (hn : n < 2 ^ 63) :
    ∃ t, Kernel.invert w.cells.read p n x.cells s = .ok t ∧
      s.ChangedOnly (x.take (n * n)).Covers t ∧
      ∀ out : Array α, out.size = n * n →
        Kernel.invert (Reader.fixed (w.copy (n * n) s)) p n Cells.array out =
          .ok (x.copy (n * n) t) := by
  have hentry : ∀ i < n, p.entry i = .ok (Int64.ofNat (RowOrder.rowAt π i)) := fun i hi =>
    hp.entry_rowAt hi
  have hrow : ∀ i < n, RowOrder.rowAt π i < 2 ^ 63 := fun i hi =>
    Nat.lt_trans (RowOrder.rowAt_lt π hi) hn
  obtain ⟨t, ht, hkept, hcolumns⟩ := Kernel.invert_ok (x.cells_lawful hx hroomx)
    ((holds_tableAt hw hroomw).shows_apart hapart) hentry hrow (.refl _ s)
  refine ⟨t, ht, hkept, fun out hout => ?_⟩
  obtain ⟨u, hu, hsize, hcolumns'⟩ := Kernel.invert_ok
    (Cells.array_lawful (Nat.le_of_eq hout.symm)) (copy_shows hw hroomw _) hentry hrow (.refl _ out)
  have hcopy : x.copy (n * n) t = u :=
    copy_eq (hx.of_changedOnly hkept) hroomx (hsize.size.trans hout) fun i hi j hj =>
      (hcolumns j hj).unique (hcolumns' j hj) i hi
  rw [hcopy]
  exact hu

end PivotedLU.Window
