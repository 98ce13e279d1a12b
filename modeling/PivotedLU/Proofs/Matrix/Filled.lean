import PivotedLU.Literal
import PivotedLU.Matrix.Arithmetic
import PivotedLU.Matrix.Residual
import PivotedLU.Matrix.Text
import PivotedLU.Proofs.Bounds
import PivotedLU.Proofs.Matrix.Checks
import PivotedLU.Proofs.Matrix.View

/-!
# Filled matrices

A dense matrix is filled when its shape is an accepted one and it has an entry for every place. What
is built from scratch is filled, and so is what operations make of filled matrices and of matrices
known by shape and entries only, whatever those report. None of them faults.
-/

namespace PivotedLU

variable {α : Type}

structure Dense.Filled (d : Dense α) : Prop where
  fits : Fits d.rows d.cols
  size : d.data.size = d.rows * d.cols

theorem Dense.Shows.filled {r c : Nat} {d : Dense α} {A : Matrix (Fin r) (Fin c) α} (h : d.Shows A) :
    d.Filled := by
  refine ⟨?_, ?_⟩
  · rw [h.rows, h.cols]
    exact h.fits
  · rw [h.rows, h.cols]
    exact h.data.size

theorem Dense.Filled.shows [Zero α] {d : Dense α} (h : d.Filled) :
    d.Shows (Matrix.of fun (i : Fin d.rows) (j : Fin d.cols) => cellAt d.data (i * d.cols + j)) :=
  ⟨h.fits, rfl, rfl, .of_cellAt h.size fun _ _ => rfl⟩

/-! ## Building -/

namespace Dense

theorem zeros_gives [Zero α] (s : Shape) : (zeros s : Result (Dense α)).Gives fun d =>
    ∃ r c, Fits r c ∧ s = ⟨Int64.ofNat r, Int64.ofNat c⟩ ∧ d = ⟨r, c, Array.replicate (r * c) 0, true⟩ := by
  by_cases h : s.isValid = true
  · obtain ⟨r, c, hfits, rfl⟩ := Shape.exists_fits h
    rw [hfits.zeros]
    exact Result.gives_ok ⟨r, c, hfits, rfl, rfl⟩
  · rw [zeros, if_neg h]
    exact Result.gives_fail _ _

theorem joinRows_gives (cols i : Nat) (rows : List (Array α)) (joined : Array α) :
    (joinRows cols i rows joined).Gives fun _ => True := by
  induction rows generalizing i joined with
  | nil => exact Result.gives_ok trivial
  | cons row rows ih =>
      rw [joinRows]
      split
      · exact (Result.gives_fail _ _).within _
      · exact ih _ _

variable [Scalar α]

theorem ofData_gives (s : Shape) (data : Array α) (strict : Bool) :
    (ofData s data strict).Gives Filled := by
  unfold ofData
  split
  next => exact Result.gives_fail _ _
  next hvalid =>
    rw [Bool.not_eq_true', Bool.not_eq_false] at hvalid
    obtain ⟨r, c, hfits, rfl⟩ := Shape.exists_fits hvalid
    split
    next => exact (Result.gives_fail _ _).within _
    next hsize =>
      rw [Decidable.not_not, hfits.size] at hsize
      dsimp only
      split
      · exact (Result.gives_fail _ _).within _
      · refine Result.gives_ok ⟨?_, ?_⟩
        · rw [Int64.toNatClampNeg_ofNat_of_lt hfits.rows_lt, Int64.toNatClampNeg_ofNat_of_lt hfits.cols_lt]
          exact hfits
        · rw [Int64.toNatClampNeg_ofNat_of_lt hfits.rows_lt, Int64.toNatClampNeg_ofNat_of_lt hfits.cols_lt]
          exact hsize

theorem ofRows_gives (rows : List (Array α)) (strict : Bool) : (ofRows rows strict).Gives Filled := by
  cases rows with
  | nil => exact Result.gives_fail _ _
  | cons first rows =>
      rw [ofRows]
      split
      · exact Result.gives_fail _ _
      · exact (joinRows_gives _ _ _ _).bind fun data _ => ofData_gives _ data strict

end Dense

theorem Literal.readTokens_gives (number : List Char → Option α) (i j : Nat) (tokens : List (List Char)) :
    (readTokens number i j tokens).Gives fun _ => True := by
  induction tokens generalizing j with
  | nil => exact Result.gives_ok trivial
  | cons token tokens ih =>
      rw [readTokens]
      split
      · exact (Result.gives_fail _ _).within _
      · exact (ih _).bind fun _ _ => Result.gives_ok trivial

theorem Literal.readRows_gives (number : List Char → Option α) (i : Nat)
    (rows : List (List (List Char))) : (readRows number i rows).Gives fun _ => True := by
  induction rows generalizing i with
  | nil => exact Result.gives_ok trivial
  | cons row rows ih =>
      cases row with
      | nil => exact (Result.gives_fail _ _).within _
      | cons token tokens =>
          refine (readTokens_gives number i 0 (token :: tokens)).bind fun vs _ => ?_
          exact (ih _).bind fun _ _ => Result.gives_ok trivial

theorem parseRows_gives (text : String) (strict : Bool) :
    (parseRows text strict).Gives Dense.Filled := by
  refine Result.Gives.within _ ?_
  split
  · exact Result.gives_fail _ _
  · exact (Literal.readRows_gives _ _ _).bind fun rows _ => Dense.ofRows_gives rows strict

/-! ## Entries -/

theorem Dense.locate_gives (access : Access) (rows cols : Nat) (i j : Int64) :
    (locate access rows cols i j).Gives (· < rows * cols) := by
  unfold locate offset?
  by_cases h : 0 ≤ i ∧ i.toInt < rows ∧ 0 ≤ j ∧ j.toInt < cols
  · rw [if_pos h]
    obtain ⟨hi, hrow, hj, hcol⟩ := h
    obtain ⟨r, hr, rfl⟩ := exists_ofNat hi
    obtain ⟨c, hc, rfl⟩ := exists_ofNat hj
    rw [Int64.toInt_ofNat_of_lt hr, Int.ofNat_lt] at hrow
    rw [Int64.toInt_ofNat_of_lt hc, Int.ofNat_lt] at hcol
    rw [Int64.toNatClampNeg_ofNat_of_lt hr, Int64.toNatClampNeg_ofNat_of_lt hc]
    exact Result.gives_ok (place_lt hrow hcol)
  · rw [if_neg h]
    exact (Result.gives_fail _ _).within _

theorem Dense.locateSet_gives [Scalar α] (rows cols : Nat) (strict : Bool) (i j : Int64) (v : α) :
    (locateSet rows cols strict i j v).Gives (· < rows * cols) := by
  refine (locate_gives .set rows cols i j).bind fun k hk => ?_
  split
  · exact (Result.gives_fail _ _).within _
  · exact Result.gives_ok hk

theorem Dense.Filled.get_gives {d : Dense α} (h : d.Filled) (i j : Int64) :
    (d.get i j).Gives fun _ => True := by
  refine (Dense.locate_gives .get d.rows d.cols i j).bind fun k hk => ?_
  rw [← h.size] at hk
  refine Result.gives_ofFaulty ⟨d.data[k], ?_, trivial⟩
  simp [Cells.array, hk]

/-! ## Operands -/

theorem Foreign.ask_gives (f : Foreign α) (i j : Nat) : (f.ask i j).Gives fun _ => True := by
  unfold ask
  split
  · exact Result.gives_ok trivial
  · exact Result.Gives.within _ (.inr ⟨_, rfl⟩)

/-- A filled dense matrix, or any matrix known by shape and entries. -/
def Operand.Filled : Operand α → Prop
  | .dense d => d.Filled
  | .foreign _ => True

/-- An array with an entry for every place of an operand, whose shape is an accepted one. -/
structure Operand.Entries (m : Operand α) (x : Array α) : Prop where
  fits : Fits m.rowCount m.colCount
  shape : m.shape = ⟨Int64.ofNat m.rowCount, Int64.ofNat m.colCount⟩
  size : x.size = m.rowCount * m.colCount

theorem Foreign.flatten_gives (f : Foreign α) : f.flatten.Gives (Operand.foreign f).Entries := by
  unfold flatten
  split
  next hvalid =>
    obtain ⟨r, c, hfits, hshape⟩ := Shape.exists_fits hvalid
    have hrows : f.shape.rows.toNatClampNeg = r := by
      rw [hshape, Int64.toNatClampNeg_ofNat_of_lt hfits.rows_lt]
    have hcols : f.shape.cols.toNatClampNeg = c := by
      rw [hshape, Int64.toNatClampNeg_ofNat_of_lt hfits.cols_lt]
    rw [hrows, hcols]
    have hloop : Result.Gives (Loop.up 0 r (fun i out => Loop.up 0 c (fun j out => do
        let v ← f.ask i j
        return out.push v) out) #[]) fun x : Array α => x.size = r * c := by
      refine Loop.up_gives (fun i (out : Array α) => out.size = i * c) (Nat.zero_le r) (by simp)
        fun i out _ hout => ?_
      rw [Nat.succ_mul]
      refine Loop.up_gives (fun j (out : Array α) => out.size = i * c + j) (Nat.zero_le c) hout
        fun j out _ hout => ?_
      refine (f.ask_gives i j).bind fun v _ => Result.gives_ok ?_
      rw [Array.size_push, hout, Nat.add_assoc]
    refine hloop.mono fun x hx => ⟨?_, ?_, ?_⟩
    · rw [Operand.rowCount, Operand.colCount, hrows, hcols]
      exact hfits
    · rw [Operand.rowCount, Operand.colCount, hrows, hcols]
      exact hshape
    · rw [Operand.rowCount, Operand.colCount, hrows, hcols]
      exact hx
  next => exact Result.gives_fail _ _

theorem Operand.Filled.flatten_gives {m : Operand α} (h : m.Filled) : m.flatten.Gives m.Entries := by
  cases m with
  | dense d => exact Result.gives_ok ⟨Dense.Filled.fits h, rfl, Dense.Filled.size h⟩
  | foreign f => exact f.flatten_gives

theorem Operand.Filled.get_gives {m : Operand α} (h : m.Filled) (i j : Int64) :
    (m.get i j).Gives fun _ => True := by
  cases m with
  | dense d => exact Dense.Filled.get_gives h i j
  | foreign f =>
      rw [Operand.get]
      split
      · exact Result.gives_ok trivial
      · exact .inr ⟨_, rfl⟩

/-- Square by the words it reports means square by its counts. -/
theorem Dense.Filled.cols_eq_rows {d : Dense α} (h : d.Filled) (hs : d.shape.rows = d.shape.cols) :
    d.cols = d.rows :=
  ((ofNat_inj h.fits.rows_lt h.fits.cols_lt).mp hs).symm

theorem Operand.Entries.colCount_eq {m : Operand α} {x : Array α} (h : m.Entries x)
    (hs : m.shape.rows = m.shape.cols) : m.colCount = m.rowCount := by
  rw [h.shape] at hs
  exact ((ofNat_inj h.fits.rows_lt h.fits.cols_lt).mp hs).symm

/-! ## Arithmetic -/

section

variable [Scalar α] {m a b : Option (Operand α)}

theorem trace_gives (hm : ∀ d ∈ m, d.Filled) : (trace m).Gives fun _ => True := by
  refine Result.Gives.within _ ((Check.isSquare_gives m).bind fun d hd => ?_)
  have hfilled := hm d hd.1
  cases d with
  | dense d =>
      have hfilled : d.Filled := hfilled
      have hread : (Reader.fixed d.data).Readable (d.rows * d.rows) fun _ : Unit => True := by
        refine Reader.fixed_readable ?_ _
        rw [hfilled.size, hfilled.cols_eq_rows hd.2]
      obtain ⟨v, hv⟩ := Kernel.trace_bounds hread (s := ()) trivial
      exact Result.gives_ofFaulty ⟨v, hv, trivial⟩
  | foreign f =>
      refine Loop.up_gives (fun _ _ => True) (Nat.zero_le _) trivial fun i t _ _ => ?_
      exact (f.ask_gives i i).bind fun v _ => Result.gives_ok trivial

theorem transpose_gives (hm : ∀ d ∈ m, d.Filled) : (transpose m).Gives Dense.Filled := by
  refine Result.Gives.within _ ((Check.isPresent_gives m).bind fun d hd => ?_)
  refine (Dense.zeros_gives _).bind fun out hout => ?_
  obtain ⟨r, c, hfits, hshape, rfl⟩ := hout
  obtain ⟨hrows, hcols⟩ := Shape.mk.inj hshape
  have hfilled := hm d hd
  cases d with
  | dense d =>
      have hfilled : d.Filled := hfilled
      obtain rfl := (ofNat_inj hfilled.fits.cols_lt hfits.rows_lt).mp hrows
      obtain rfl := (ofNat_inj hfilled.fits.rows_lt hfits.cols_lt).mp hcols
      refine (Result.gives_ofFaulty (Kernel.transposeInto_bounds
        (Reader.fixed_readable (Nat.le_of_eq hfilled.size.symm) _) (Cells.array_usable _)
        Array.size_replicate)).bind fun data hdata => ?_
      exact Result.gives_ok ⟨hfits, hdata⟩
  | foreign f =>
      have hrows : f.shape.cols.toNatClampNeg = r := by
        rw [show f.shape.cols = Int64.ofNat r from hrows, Int64.toNatClampNeg_ofNat_of_lt hfits.rows_lt]
      have hcols : f.shape.rows.toNatClampNeg = c := by
        rw [show f.shape.rows = Int64.ofNat c from hcols, Int64.toNatClampNeg_ofNat_of_lt hfits.cols_lt]
      dsimp only
      rw [hrows, hcols]
      refine (Loop.up_gives (fun _ (data : Array α) => data.size = r * c) (Nat.zero_le c)
        Array.size_replicate fun i data hi hdata => ?_).bind fun data hdata =>
          Result.gives_ok ⟨hfits, hdata⟩
      refine Loop.up_gives (fun _ (data : Array α) => data.size = r * c) (Nat.zero_le r) hdata
        fun j data hj hdata => ?_
      refine (f.ask_gives i j).bind fun v _ => Result.gives_ofFaulty ?_
      exact (Cells.array_usable (r * c)).write hdata (place_lt hj hi) v

theorem multiply_gives (ha : ∀ d ∈ a, d.Filled) (hb : ∀ d ∈ b, d.Filled) :
    (multiply a b).Gives Dense.Filled := by
  refine Result.Gives.within _ ((Check.areMultipliable_gives a b).bind fun c hc => ?_)
  obtain ⟨a', b'⟩ := c
  obtain ⟨ha', hb', hinner⟩ := hc
  refine (Dense.zeros_gives _).bind fun out hout => ?_
  obtain ⟨r, c, hfits, hshape, rfl⟩ := hout
  refine (ha a' ha').flatten_gives.bind fun x hx => (hb b' hb').flatten_gives.bind fun y hy => ?_
  have hinner : a'.colCount = b'.rowCount := by
    have hinner : a'.shape.cols = b'.shape.rows := hinner
    rw [hx.shape, hy.shape] at hinner
    exact (ofNat_inj hx.fits.cols_lt hy.fits.rows_lt).mp hinner
  rw [hx.shape, hy.shape] at hshape
  obtain ⟨hrows, hcols⟩ := Shape.mk.inj hshape
  obtain rfl := (ofNat_inj hx.fits.rows_lt hfits.rows_lt).mp hrows
  obtain rfl := (ofNat_inj hy.fits.cols_lt hfits.cols_lt).mp hcols
  have hy' : a'.colCount * b'.colCount ≤ y.size := by rw [hy.size, hinner]
  refine (Result.gives_ofFaulty (Kernel.product_bounds
    (Reader.fixed_readable (Nat.le_of_eq hx.size.symm) _) (Reader.fixed_readable hy' _)
    (Cells.array_usable _) Array.size_replicate)).bind fun data hdata => ?_
  exact Result.gives_ok ⟨hfits, hdata⟩

theorem identity_gives (n : Int64) : (identity n : Result (Dense α)).Gives Dense.Filled := by
  refine Result.Gives.within _ ((Dense.zeros_gives _).bind fun out hout => ?_)
  obtain ⟨r, c, hfits, hshape, rfl⟩ := hout
  obtain ⟨rfl, hcols⟩ := Shape.mk.inj hshape
  obtain rfl := (ofNat_inj hfits.rows_lt hfits.cols_lt).mp hcols
  rw [Int64.toNatClampNeg_ofNat_of_lt hfits.rows_lt]
  refine (Result.gives_ofFaulty (Loop.up_ok (fun _ (data : Array α) => data.size = r * r)
    (Nat.zero_le r) Array.size_replicate (fun i data _ hi hdata => ?_) fun _ h => h)).bind
      fun data hdata => Result.gives_ok ⟨hfits, hdata⟩
  exact (Cells.array_usable (r * r)).write hdata (place_lt hi hi) 1

/-! ## Comparisons -/

theorem closeEntries_ok (rtol atol : α) {x y : List α} (h : x.length ≤ y.length) :
    ∃ b, closeEntries rtol atol x y = .ok b := by
  induction x generalizing y with
  | nil => exact ⟨true, rfl⟩
  | cons u us ih =>
      cases y with
      | nil => simp at h
      | cons v vs =>
          rw [closeEntries]
          split
          · exact ih (by simpa using h)
          · exact ⟨false, rfl⟩

theorem allClose_gives (ha : ∀ d ∈ a, d.Filled) (hb : ∀ d ∈ b, d.Filled) (rtol atol : α) :
    (allClose a b rtol atol).Gives fun _ => True := by
  refine (Check.isPresent_gives a).bind fun a' ha' => (Check.isPresent_gives b).bind fun b' hb' => ?_
  split
  next => exact Result.gives_ok trivial
  next hshape =>
    refine (ha a' ha').flatten_gives.bind fun x hx => (hb b' hb').flatten_gives.bind fun y hy => ?_
    rw [Decidable.not_not, hx.shape, hy.shape] at hshape
    obtain ⟨hrows, hcols⟩ := Shape.mk.inj hshape
    rw [ofNat_inj hx.fits.rows_lt hy.fits.rows_lt] at hrows
    rw [ofNat_inj hx.fits.cols_lt hy.fits.cols_lt] at hcols
    have hlength : x.toList.length ≤ y.toList.length := by
      rw [Array.length_toList, Array.length_toList, hx.size, hy.size, hrows, hcols]
    obtain ⟨close, hclose⟩ := closeEntries_ok rtol atol hlength
    exact Result.gives_ofFaulty ⟨close, hclose, trivial⟩

end

/-! ## Distance from the identity -/

section

variable {m : Option (Operand Float)}

theorem Residual.fold_ok {n : Nat} (hn : 0 < n) (k : Nat) (entries : List Float) (r : Residual) :
    ∃ r', Residual.fold n k entries r = .ok r' := by
  induction entries generalizing k r with
  | nil => exact ⟨r, rfl⟩
  | cons v vs ih =>
      rw [Residual.fold, deviation, if_neg (Nat.ne_of_gt hn)]
      exact ih _ _

theorem identityResidual_gives (hm : ∀ d ∈ m, d.Filled) :
    (identityResidual m).Gives fun _ => True := by
  refine Result.Gives.within _ ((Check.isSquare_gives m).bind fun d hd => ?_)
  refine (hm d hd.1).flatten_gives.bind fun x hx => ?_
  obtain ⟨r, hr⟩ := Residual.fold_ok hx.fits.rows_pos 0 x.toList ⟨0, 0⟩
  exact Result.gives_ofFaulty ⟨r, hr, trivial⟩

theorem isIdentity_gives (hm : ∀ d ∈ m, d.Filled) (settings : Settings) :
    (isIdentity m settings).Gives fun _ => True := by
  refine (Check.isPresent_gives m).bind fun d _ => ?_
  split
  · exact Result.gives_ok trivial
  · exact (identityResidual_gives hm).bind fun r _ => Result.gives_ok trivial

/-! ## Text -/

theorem entryTexts_ok (entry : Float → String) {rows cols : Nat} {data : Array Float}
    (h : data.size = rows * cols) : ∃ texts, entryTexts entry rows cols data = .ok texts ∧ True := by
  refine bind_ok (Loop.up_ok (fun _ _ => True) (Nat.zero_le rows) trivial (fun i texts _ hi _ => ?_)
    fun _ h => h) fun texts _ => ⟨texts.reverse, rfl, trivial⟩
  refine bind_ok ?_ fun row (_ : True) => ⟨row :: texts, rfl, trivial⟩
  refine bind_ok (Loop.up_ok (fun _ _ => True) (Nat.zero_le cols) trivial (fun j texts _ hj _ => ?_)
    fun _ h => h) fun texts _ => ⟨texts.reverse, rfl, trivial⟩
  have hread := (Cells.array_usable (rows * cols)).readable data h _ (place_lt hi hj)
  exact bind_of_ok hread fun v => ⟨entry v :: texts, rfl, trivial⟩

theorem Dense.Filled.text_ok {d : Dense Float} (h : d.Filled) : ∃ s, d.text = .ok s := by
  obtain ⟨rows, hrows, -⟩ := entryTexts_ok Decimal.Layout.general.render h.size
  rw [Dense.text, hrows]
  exact ⟨_, rfl⟩

theorem latex_gives (hm : ∀ d ∈ m, d.Filled) (places : Int64) :
    (latex m places).Gives fun _ => True := by
  refine Result.Gives.within _ ((Check.isPresent_gives m).bind fun d hd => ?_)
  refine (hm d hd).flatten_gives.bind fun x hx => ?_
  refine (Result.gives_ofFaulty (entryTexts_ok (latexEntry places) hx.size)).bind fun rows _ => ?_
  exact Result.gives_ok trivial

end

end PivotedLU
