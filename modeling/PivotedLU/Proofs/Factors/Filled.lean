import PivotedLU.Proofs.Elimination.Pivots
import PivotedLU.Proofs.Elimination.Runs
import PivotedLU.Proofs.Factors.Parts
import PivotedLU.Proofs.Matrix.Filled

/-!
# Filled factors

Factors are filled when there is an entry for every place and the record is a valid one for their
dimension. Factorization gives filled factors, and everything computed from filled factors is there.
-/

namespace PivotedLU

variable {α : Type} {n k : Nat}

structure Factors.Filled (f : Factors α) : Prop where
  fits : Fits f.n f.n
  size : f.lu.size = f.n * f.n
  order_size : f.order.entries.size = f.n + 1
  order_valid : f.order.isValid = .ok true

theorem Fits.isValid_of_records {p : RowOrder} {π : Equiv.Perm (Fin n)} (h : Fits n n)
    (hp : p.Records π k) (hk : k ≤ n) : p.isValid = .ok true :=
  hp.isValid h.rows_pos (Nat.lt_of_le_of_lt (Nat.add_le_add_left hk n) h.double_lt)

variable [Scalar α]

/-! ## Factorization -/

theorem Factors.ofBlock_gives (tol : α) {block : Array α} (hfits : Fits n n)
    (hsize : block.size = n * n) : (ofBlock tol n block).Gives Filled := by
  have hcells := Cells.array_lawful (Nat.le_of_eq hsize.symm)
  obtain ⟨e, π, k, he, hkept, hend⟩ := Kernel.decompose_ok hcells tol (.refl _ block)
    (RowOrder.size_identity n) fun _ _ _ _ => rfl
  have hrun : Result.Gives (Result.ofFaulty (Kernel.decompose Cells.array n (RowOrder.identity n) tol block))
      (· = e) := Result.gives_ofFaulty ⟨e, he, rfl⟩
  refine hrun.bind ?_
  rintro _ rfl
  split
  next hstopped =>
    have htable := hend.table
    rw [hstopped] at htable
    exact Result.gives_ok ⟨hfits, hkept.size.trans hsize, hend.order.size,
      hfits.isValid_of_records hend.order htable.exchanges_le⟩
  next =>
    obtain ⟨column, hcolumn⟩ := Kernel.degenerateColumn_ok hcells hkept tol
    rw [hcolumn]
    exact .inr ⟨_, rfl⟩

theorem factorize_gives (tol : α) {m : Option (Operand α)} (hm : ∀ d ∈ m, d.Filled) :
    (factorize tol m).Gives Factors.Filled := by
  refine Result.Gives.within _ ((Check.isSquare_gives m).bind fun d hd => ?_)
  refine (hm d hd.1).flatten_gives.bind fun x hx => ?_
  have hcols := hx.colCount_eq hd.2
  have hfits := hx.fits
  have hsize := hx.size
  rw [hcols] at hfits hsize
  exact Factors.ofBlock_gives tol hfits hsize

/-! ## What factors give -/

namespace Factors.Filled

variable {f : Factors α} (h : f.Filled)

include h

omit [Scalar α] in
theorem exists_records : ∃ (π : Equiv.Perm (Fin f.n)) (k : Nat), f.order.Records π k := by
  obtain ⟨n, k, π, -, -, hp⟩ := RowOrder.exists_records h.order_valid
  obtain rfl : n = f.n := Nat.succ.inj (hp.size.symm.trans h.order_size)
  exact ⟨π, k, hp⟩

theorem lower_ok : ∃ d, f.lower = .ok d ∧ d.Filled := by
  obtain ⟨d, hd, hshows⟩ := Factors.lower_ok f.order h.fits h.size
  exact ⟨d, hd, hshows.filled⟩

theorem upper_ok : ∃ d, f.upper = .ok d ∧ d.Filled := by
  obtain ⟨d, hd, hshows⟩ := Factors.upper_ok f.order h.fits h.size
  exact ⟨d, hd, hshows.filled⟩

theorem permutation_ok : ∃ d, f.permutation = .ok d ∧ d.Filled := by
  obtain ⟨π, k, hp⟩ := h.exists_records
  obtain ⟨d, hd, hshows⟩ := Factors.permutation_ok f.lu h.fits hp
  exact ⟨d, hd, hshows.filled⟩

theorem inverse_ok : ∃ d, f.inverse = .ok d ∧ d.Filled := by
  obtain ⟨π, k, hp⟩ := h.exists_records
  have hread : (Reader.fixed f.lu).Readable (f.n * f.n) fun data : Array α => data.size = f.n * f.n :=
    Reader.fixed_readable (Nat.le_of_eq h.size.symm) _
  refine bind_ok (Kernel.invert_bounds hread hp (Cells.array_usable _) Array.size_replicate)
    fun data hdata => ⟨_, rfl, h.fits, hdata⟩

theorem determinant_ok : ∃ v, f.determinant = .ok v := by
  obtain ⟨π, k, hp⟩ := h.exists_records
  have hread : (Reader.fixed f.lu).Readable (f.n * f.n) fun _ : Unit => True :=
    Reader.fixed_readable (Nat.le_of_eq h.size.symm) _
  exact Kernel.determinant_bounds h.fits.rows_pos hread trivial hp

theorem solve_gives (b : Option (Array α)) : (f.solve b).Gives fun _ => True := by
  refine ((Check.hasLength_gives _ _).within _).bind fun _ hb => ?_
  obtain ⟨_, hb, hlength⟩ := hb
  obtain ⟨v, rfl, rfl⟩ := Option.map_eq_some_iff.mp hb
  rw [Int64.toInt_ofNat_of_lt h.fits.rows_lt, Int.ofNat_inj] at hlength
  obtain ⟨π, k, hp⟩ := h.exists_records
  have hread : (Reader.fixed f.lu).Readable (f.n * f.n) fun data : Array α => data.size = f.n :=
    Reader.fixed_readable (Nat.le_of_eq h.size.symm) _
  have hrhs : (Reader.fixed v).Readable f.n fun data : Array α => data.size = f.n :=
    Reader.fixed_readable (Nat.le_of_eq hlength.symm) _
  obtain ⟨x, hx, -⟩ := Kernel.solve_bounds hread hrhs hp h.fits.rows_lt (Cells.array_usable f.n)
    Array.size_replicate
  exact Result.gives_ofFaulty ⟨x, hx, trivial⟩

end Factors.Filled

variable {m : Option (Operand α)} (tol : α) (hm : ∀ d ∈ m, d.Filled)

include hm

theorem solve_gives (b : Option (Array α)) : (solve tol m b).Gives fun _ => True := by
  refine ((Check.isSquare_gives m).within _).bind fun d _ => ?_
  refine ((Check.hasLength_gives _ _).within _).bind fun _ _ => ?_
  exact ((factorize_gives tol hm).within _).bind fun f hf => hf.solve_gives b

theorem inverse_gives : (inverse tol m).Gives Dense.Filled :=
  ((factorize_gives tol hm).within _).bind fun _ hf => Result.gives_ofFaulty hf.inverse_ok

theorem determinant_gives : (determinant tol m).Gives fun _ => True := by
  refine ((factorize_gives tol hm).within _).bind fun f hf => ?_
  obtain ⟨v, hv⟩ := hf.determinant_ok
  exact Result.gives_ofFaulty ⟨v, hv, trivial⟩

end PivotedLU
