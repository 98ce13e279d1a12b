import PivotedLU.Literal
import PivotedLU.Matrix.Arithmetic
import PivotedLU.Proofs.Elimination.Frame
import PivotedLU.Proofs.Matrix.Checks
import PivotedLU.Proofs.Store
import PivotedLU.Stored.Matrix

/-!
# Strict matrices

A strict matrix takes no entry that is not finite. Building one checks what it is given or writes
zeros and ones, and transposition only carries entries from one cell to another.
-/

namespace PivotedLU

variable {σ α : Type} {p : α → Prop} {ok : σ → Prop}

/-! ## Carrying values -/

/-- What is read has the property, and writing what has it keeps that so. -/
structure Cells.Carries (c : Cells σ α) (p : α → Prop) (ok : σ → Prop) : Prop where
  read : ∀ s i v, ok s → c.read s i = .ok v → p v
  write : ∀ s i v t, ok s → p v → c.write s i v = .ok t → ok t

theorem Reader.of_fixed {a : Array α} {s : σ} {i : Nat} {v : α} (ha : ∀ x ∈ a, p x)
    (h : Reader.fixed a s i = .ok v) : p v := by
  unfold Reader.fixed at h
  split at h
  · cases h
    exact ha _ (Array.getElem_mem _)
  · cases h

theorem Cells.array_carries (p : α → Prop) : Cells.array.Carries p fun a => ∀ x ∈ a, p x where
  read _ _ _ ha h := Reader.of_fixed (s := ()) ha h
  write a i v t ha hv h := by
    unfold Cells.array at h
    dsimp only at h
    split at h
    · cases h
      intro x hx
      rcases Array.mem_or_eq_of_mem_set hx with hx | rfl
      · exact ha x hx
      · exact hv
    · cases h

theorem Window.cells_carries (w : Window) (p : α → Prop) :
    w.cells.Carries p fun s : Store α => ∀ x ∈ s.block w.block, p x where
  read s i v hs h := by
    simp only [cells] at h
    split at h
    · unfold Store.read at h
      split at h
      next hb =>
        split at h
        · cases h
          refine hs _ ?_
          rw [Store.block_eq hb]
          exact Array.getElem_mem _
        · cases h
      next => cases h
    · cases h
  write s i v t hs hv h := by
    simp only [cells] at h
    split at h
    · obtain ⟨u, hu, hblock, -⟩ := Store.write_eq (Store.lt_size_of_write h) v
      obtain rfl : u = t := Except.ok.inj (hu.symm.trans h)
      rw [hblock]
      intro x hx
      rcases Array.mem_or_eq_of_mem_set hx with hx | rfl
      · exact hs x hx
      · exact hv
    · cases h

namespace Kernel

variable {c : Cells σ α} {rows cols n : Nat} {s t : σ}

theorem transpose_carries (hc : c.Carries p ok) (hs : ok s) (h : transpose c n s = .ok t) : ok t := by
  refine Loop.up_keeps ok (fun i s t _ hs h => ?_) hs h
  refine Loop.up_keeps ok (fun j s t _ hs h => ?_) hs h
  obtain ⟨x, hx, h⟩ := exists_of_bind_ok h
  obtain ⟨y, hy, h⟩ := exists_of_bind_ok h
  obtain ⟨s₁, hw, h⟩ := exists_of_bind_ok h
  have hs₁ : ok s₁ := hc.write _ _ _ _ hs (hc.read _ _ _ hs hy) hw
  exact hc.write _ _ _ _ hs₁ (hc.read _ _ _ hs hx) h

theorem transposeInto_carries {a : Array α} (hc : c.Carries p ok) (ha : ∀ x ∈ a, p x) (hs : ok s)
    (h : transposeInto (Reader.fixed a) c rows cols s = .ok t) : ok t := by
  refine Loop.up_keeps ok (fun i s t _ hs h => ?_) hs h
  refine Loop.up_keeps ok (fun j s t _ hs h => ?_) hs h
  obtain ⟨v, hv, h⟩ := exists_of_bind_ok h
  exact hc.write _ _ _ _ hs (Reader.of_fixed ha hv) h

end Kernel

/-! ## Building -/

def AllFinite (data : Array Float) : Prop :=
  ∀ x ∈ data, x.isFinite = true

/-- A strict matrix has finite entries only. -/
def Dense.Clean (d : Dense Float) : Prop :=
  d.strict = true → AllFinite d.data

theorem allFinite_replicate (n : Nat) : AllFinite (Array.replicate n 0) := by
  intro x hx
  obtain ⟨-, rfl⟩ := Array.mem_replicate.mp hx
  rfl

namespace Dense

variable {d : Dense Float} {strict : Bool}

theorem clean_empty : Dense.Clean .empty := by
  rintro ⟨⟩

theorem allFinite_zeros {shape : Shape} (h : zeros shape = .ok d) : AllFinite d.data := by
  unfold zeros at h
  split at h
  · cases h
    exact allFinite_replicate _
  · cases h

theorem clean_ofData {shape : Shape} {data : Array Float} (h : ofData shape data strict = .ok d) :
    d.Clean := by
  unfold ofData at h
  split at h
  · cases h
  · split at h
    · cases h
    · dsimp only at h
      split at h
      next => cases h
      next hfind =>
        cases h
        rintro (rfl : strict = true) x hx
        rw [if_pos rfl, Array.findIdx?_eq_none_iff] at hfind
        exact Bool.not_eq_false' .. ▸ hfind x hx

theorem clean_ofRows {rows : List (Array Float)} (h : ofRows rows strict = .ok d) : d.Clean := by
  unfold ofRows at h
  split at h
  next => cases h
  next =>
    dsimp only at h
    split at h
    · cases h
    · obtain ⟨data, -, h⟩ := exists_of_bind_ok h
      exact clean_ofData h

end Dense

variable {d : Dense Float}

theorem clean_parseRows {text : String} {strict : Bool} (h : parseRows text strict = .ok d) : d.Clean := by
  have h := Result.ok_of_within h
  split at h
  · cases h
  · obtain ⟨rows, -, h⟩ := exists_of_bind_ok h
    exact Dense.clean_ofRows h

theorem clean_identity {n : Int64} (h : identity n = .ok d) : d.Clean := by
  obtain ⟨out, hout, h⟩ := exists_of_bind_ok (Result.ok_of_within h)
  obtain ⟨data, hdata, h⟩ := exists_of_bind_ok h
  cases h
  intro _
  refine Loop.up_keeps AllFinite (fun i a b _ ha h => ?_) (Dense.allFinite_zeros hout)
    (Result.ok_of_ofFaulty hdata)
  exact (Cells.array_carries _).write a _ 1 b ha rfl h

theorem clean_transpose {m : Dense Float} (hm : m.Clean) (h : transpose (some (.dense m)) = .ok d) :
    d.Clean := by
  obtain ⟨x, hx, h⟩ := exists_of_bind_ok (Result.ok_of_within h)
  cases hx
  obtain ⟨out, hout, h⟩ := exists_of_bind_ok h
  obtain ⟨data, hdata, h⟩ := exists_of_bind_ok h
  cases h
  exact fun hstrict => Kernel.transposeInto_carries (Cells.array_carries _) (hm hstrict)
    (Dense.allFinite_zeros hout) (Result.ok_of_ofFaulty hdata)

theorem Factors.clean_permutation {f : Factors Float} (h : f.permutation = .ok d) : d.Clean := by
  obtain ⟨data, hdata, h⟩ := exists_of_bind_ok h
  cases h
  intro _
  refine Loop.up_keeps AllFinite (fun i a b _ ha h => ?_) (allFinite_replicate _) hdata
  obtain ⟨source, -, h⟩ := exists_of_bind_ok h
  dsimp only at h
  split at h
  · cases h
  · exact (Cells.array_carries _).write a _ 1 b ha rfl h

/-! ## Changes in place -/

namespace StoredMatrix

variable {s : Store Float}

theorem clean_set {m : StoredMatrix} (hm : (m.view s).Clean) (i j : Int64) (v : Float) :
    (m.view (m.set i j v s).2).Clean := by
  unfold set
  split
  next => exact hm
  next k hk =>
    obtain ⟨l, -, hk⟩ := exists_of_bind_ok hk
    split at hk
    · cases hk
    next hrefused =>
      intro hstrict
      have hv : v.isFinite = true := by
        rw [show m.strict = true from hstrict, Bool.true_and, Bool.not_eq_true,
          Bool.not_eq_false'] at hrefused
        exact hrefused
      have hcells := (m.window s).cells_carries fun x : Float => x.isFinite = true
      cases hw : (m.window s).cells.write s k v with
      | error f => exact hm hstrict
      | ok t => exact hcells.write s k v t (hm hstrict) hv hw

theorem clean_transposeInPlace {m : StoredMatrix} (hm : (m.view s).Clean) :
    (m.view (transposeInPlace (some m) s).2).Clean := by
  unfold transposeInPlace
  split
  next => exact hm
  next d hd =>
    obtain ⟨hsome, -⟩ := ((Check.isSquare_gives (some m)).within _).of_ok hd
    cases hsome
    intro hstrict
    have hcells := (m.window s).cells_carries fun x : Float => x.isFinite = true
    cases ht : Kernel.transpose (m.window s).cells m.rows s with
    | error f => exact hm hstrict
    | ok t =>
        have hkept := Kernel.transpose_carries hcells (hm hstrict) ht
        exact hkept

end StoredMatrix

end PivotedLU
