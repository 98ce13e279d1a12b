import PivotedLU.Proofs.Cells
import PivotedLU.Stored.Matrix

/-!
# Stores and what stays in them

The cells of a window are lawful, and the states that are good for them are the stores that differ
from a given one inside the window only. So every kernel that runs on a window leaves all other
cells of the store alone.
-/

namespace PivotedLU

variable {α : Type} {s t : Store α} {b i : Nat}

namespace Store

theorem lt_blocks_of_lt_size (h : i < (s.block b).size) : b < s.blocks.size := by
  by_contra hb
  simp [block, hb] at h

theorem block_eq (hb : b < s.blocks.size) : s.block b = s.blocks[b] := by
  simp [block, hb]

theorem read_eq [Zero α] (h : i < (s.block b).size) : s.read b i = .ok (cellAt (s.block b) i) := by
  have hb := lt_blocks_of_lt_size h
  rw [block_eq hb] at h ⊢
  rw [read, dif_pos hb, dif_pos h, cellAt_eq h]

theorem write_eq (h : i < (s.block b).size) (v : α) : ∃ t, s.write b i v = .ok t ∧
    t.block b = (s.block b).set i v h ∧ ∀ b', b' ≠ b → t.block b' = s.block b' := by
  have hb := lt_blocks_of_lt_size h
  refine ⟨⟨s.blocks.modify b (·.setIfInBounds i v)⟩, ?_, ?_, fun b' hb' => ?_⟩
  · rw [block_eq hb] at h
    rw [write, dif_pos hb, if_pos h]
  · simp only [block_eq hb] at h ⊢
    rw [block_eq (by simpa using hb)]
    simp only [Array.getElem_modify, if_true, Array.setIfInBounds, h, dif_pos]
  · simp [block, Array.getElem?_modify, hb'.symm]

theorem lt_size_of_write {v : α} (h : s.write b i v = .ok t) : i < (s.block b).size := by
  unfold write at h
  split at h
  next hb =>
    split at h
    next hi => rwa [block_eq hb]
    next => cases h
  next => cases h

/-- `t` has the blocks of `s` and differs from it at most in the cells that are touched. -/
def ChangedOnly (touched : Nat → Nat → Prop) (s t : Store α) : Prop :=
  ∀ b, PivotedLU.ChangedOnly (touched b) (s.block b) (t.block b)

theorem ChangedOnly.refl (touched : Nat → Nat → Prop) (s : Store α) : s.ChangedOnly touched s :=
  fun _ => .refl _ _

theorem ChangedOnly.mono {p q : Nat → Nat → Prop} (h : s.ChangedOnly p t)
    (hpq : ∀ b k, p b k → q b k) : s.ChangedOnly q t :=
  fun b => ⟨(h b).size, fun k hk => (h b).cell k fun hp => hk (hpq b k hp)⟩

theorem ChangedOnly.trans {p q touched : Nat → Nat → Prop} {u : Store α} (h : s.ChangedOnly p t)
    (h' : t.ChangedOnly q u) (hp : ∀ b k, p b k → touched b k) (hq : ∀ b k, q b k → touched b k) :
    s.ChangedOnly touched u :=
  fun b => (h b).trans (h' b) (hp b) (hq b)

theorem block_alloc_of_lt (cells : Array α) (hb : b < s.blocks.size) :
    (s.alloc cells).2.block b = s.block b := by
  simp [alloc, block, Array.getElem?_push, Nat.ne_of_lt hb]

theorem block_alloc (s : Store α) (cells : Array α) :
    (s.alloc cells).2.block s.blocks.size = cells := by
  simp [alloc, block]

theorem view_keep (s : Store α) (d : Dense α) : (s.keep d).1.view (s.keep d).2 = d :=
  congrArg (Dense.mk d.rows d.cols · d.strict) (block_alloc s d.data)

theorem view_keepFactors (s : Store α) (f : Factors α) :
    (s.keepFactors f).1.view (s.keepFactors f).2 = f :=
  congrArg (Factors.mk f.n · f.order) (block_alloc s f.lu)

theorem block_keepFactors_of_lt (f : Factors α) (hb : b < s.blocks.size) :
    (s.keepFactors f).2.block b = s.block b :=
  block_alloc_of_lt f.lu hb

end Store

namespace Window

variable {v w : Window} {size : Nat}

/-- All cells of the window are there. -/
def Inside (w : Window) (s : Store α) : Prop :=
  w.offset + w.length ≤ (s.block w.block).size

/-- Cell `k` of block `b` belongs to the window. -/
def Covers (w : Window) (b k : Nat) : Prop :=
  b = w.block ∧ w.offset ≤ k ∧ k < w.offset + w.length

theorem inside_whole (s : Store α) (b : Nat) : (whole s b).Inside s := by
  simp [Inside, whole]

theorem Inside.lt_blocks (hin : w.Inside s) (hpos : 0 < w.length) : w.block < s.blocks.size :=
  Store.lt_blocks_of_lt_size (Nat.lt_of_lt_of_le (Nat.add_pos_right _ hpos) hin)

theorem Inside.of_changedOnly {touched : Nat → Nat → Prop} (hin : w.Inside s)
    (h : s.ChangedOnly touched t) : w.Inside t := by
  rw [Inside, (h w.block).size]
  exact hin

variable [Zero α]

/-- What a window shows at a place. -/
def cellAt (w : Window) (s : Store α) (i : Nat) : α :=
  PivotedLU.cellAt (s.block w.block) (w.offset + i)

theorem cellAt_whole (s t : Store α) (b i : Nat) :
    (whole s b).cellAt t i = PivotedLU.cellAt (t.block b) i := by
  simp [cellAt, whole]

theorem read_eq (hin : w.Inside s) (hi : i < w.length) : w.cells.read s i = .ok (w.cellAt s i) := by
  have hlt : w.offset + i < (s.block w.block).size := Nat.lt_of_lt_of_le (by omega) hin
  simp only [cells, hi, if_true]
  exact Store.read_eq hlt

theorem readable (hin : w.Inside s) (hsize : size ≤ w.length) (touched : Nat → Nat → Prop) :
    Reader.Readable w.cells.read size (s.ChangedOnly touched) := by
  intro t ht i hi
  exact ⟨_, read_eq (hin.of_changedOnly ht) (Nat.lt_of_lt_of_le hi hsize)⟩

theorem reader_readable {τ : Type} (hin : w.Inside s) (hsize : size ≤ w.length) (ok : τ → Prop) :
    Reader.Readable (w.reader s) size ok :=
  fun _ _ _ hi => ⟨_, read_eq hin (Nat.lt_of_lt_of_le hi hsize)⟩

omit [Zero α] in
theorem cells_keeps (w : Window) (size : Nat) (s : Store α) :
    w.cells.Keeps size (s.ChangedOnly (w.take size).Covers) := by
  intro t i v u ht hi h
  simp only [cells] at h
  split at h
  next =>
    have hlt := Store.lt_size_of_write h
    obtain ⟨u', hu, hblock, hother⟩ := Store.write_eq hlt v
    obtain rfl : u' = u := Except.ok.inj (hu.symm.trans h)
    intro b
    rcases eq_or_ne b w.block with rfl | hb
    · rw [hblock]
      exact (ht w.block).set ⟨rfl, Nat.le_add_right _ _, Nat.add_lt_add_left hi _⟩ v hlt
    · rw [hother b hb]
      exact ht b
  next => cases h

/-- The first cells of a window; everything else stays as it was in `s`. -/
theorem cells_lawful (hin : w.Inside s) (hsize : size ≤ w.length) :
    w.cells.Lawful size (s.ChangedOnly (w.take size).Covers) w.cellAt where
  read ht hi := read_eq (hin.of_changedOnly ht) (Nat.lt_of_lt_of_le hi hsize)
  write {t i} ht hi v := by
    have hlt : w.offset + i < (t.block w.block).size :=
      Nat.lt_of_lt_of_le (by omega) (hin.of_changedOnly ht)
    obtain ⟨t', hw, hblock, -⟩ := Store.write_eq hlt v
    have hwrite : w.cells.write t i v = .ok t' := by
      simp only [cells, Nat.lt_of_lt_of_le hi hsize, if_true, hw]
    refine ⟨t', hwrite, cells_keeps w size s t i v t' ht hi hwrite, ?_⟩
    funext j
    rw [cellAt, hblock, Function.update_apply]
    split
    next hj => simp [hj, PivotedLU.cellAt, hlt]
    next hj =>
      have hne : w.offset + i ≠ w.offset + j := by omega
      simp [cellAt, PivotedLU.cellAt, Array.getElem?_set_ne hlt hne]

/-! ## Windows without a common cell -/

/-- The windows have a cell in common. -/
def Shares (v w : Window) : Prop :=
  ∃ b k, v.Covers b k ∧ w.Covers b k

omit [Zero α] in
theorem overlaps_iff : v.overlaps w = true ↔ v.Shares w := by
  simp only [overlaps, Bool.and_eq_true, bne_iff_ne, beq_iff_eq, decide_eq_true_eq]
  constructor
  · rintro ⟨⟨⟨⟨hv, hw⟩, hblock⟩, hlt⟩, hlt'⟩
    -- The later of the two first cells belongs to both.
    exact ⟨v.block, max v.offset w.offset, ⟨rfl, by omega, by omega⟩, hblock, by omega, by omega⟩
  · rintro ⟨b, k, ⟨rfl, hle, hlt⟩, hblock, hle', hlt'⟩
    refine ⟨⟨⟨⟨?_, ?_⟩, hblock⟩, ?_⟩, ?_⟩ <;> omega

theorem not_covers_of_apart (hapart : w.overlaps v = false) (hi : i < v.length) :
    ¬ w.Covers v.block (v.offset + i) := by
  rintro ⟨hblock, hle, hlt⟩
  refine Bool.eq_false_iff.mp hapart ?_
  simp only [overlaps, Bool.and_eq_true, bne_iff_ne, beq_iff_eq, decide_eq_true_eq]
  omega

theorem cellAt_of_apart (hapart : w.overlaps v = false) (h : s.ChangedOnly w.Covers t)
    (hi : i < v.length) : v.cellAt t i = v.cellAt s i := by
  rw [cellAt, cellAt, PivotedLU.cellAt, PivotedLU.cellAt, Array.getD_eq_getD_getElem?,
    Array.getD_eq_getD_getElem?, (h v.block).cell _ (not_covers_of_apart hapart hi)]

/-- What is written into one window cannot be seen in the other one. -/
theorem read_of_apart (hin : v.Inside s) (hapart : w.overlaps v = false) (h : s.ChangedOnly w.Covers t)
    (hi : i < v.length) : v.cells.read t i = .ok (v.cellAt s i) := by
  rw [read_eq (hin.of_changedOnly h) hi, cellAt_of_apart hapart h hi]

theorem overlaps_of_block_ne (h : w.block ≠ v.block) : w.overlaps v = false := by
  simp [overlaps, h]

theorem noAlias_eq (h : w.overlaps v = false) : w.noAlias [v] = .ok () := by
  simp [noAlias, h]

omit [Zero α] in
theorem noAlias_of_apart {inputs : List Window} (h : ∀ v ∈ inputs, ¬ w.Shares v) :
    w.noAlias inputs = .ok () := by
  refine if_neg (Bool.not_eq_true _ ▸ List.any_eq_false.mpr fun v hv hover => ?_)
  exact h v hv (overlaps_iff.mp hover)

omit [Zero α] in
theorem noAlias_of_shares {inputs : List Window} (hv : v ∈ inputs) (h : w.Shares v) :
    w.noAlias inputs = .error (.error ⟨[.check .noAlias], .aliasedOutput⟩) :=
  if_pos (List.any_eq_true.mpr ⟨v, hv, overlaps_iff.mpr h⟩)

/-! ## Contents -/

omit [Zero α] in
theorem contents_of_changedOnly {touched : Nat → Nat → Prop} (h : s.ChangedOnly touched t)
    (hout : ∀ b k, w.Covers b k → ¬ touched b k) : w.contents t = w.contents s := by
  refine Array.ext_getElem? fun i => ?_
  simp only [contents, Array.getElem?_extract, (h w.block).size]
  split
  next hi =>
    refine (h w.block).cell _ (hout _ _ ⟨rfl, Nat.le_add_right _ _, ?_⟩)
    omega
  next => rfl

omit [Zero α] in
theorem size_contents (hin : w.Inside s) : (w.contents s).size = w.length := by
  rw [contents, Array.size_extract, Nat.min_eq_left hin, Nat.add_sub_cancel_left]

omit [Zero α] in
theorem length_of_contents {n : Nat} {b : Fin n → α} (hin : w.Inside s)
    (h : w.contents s = Array.ofFn b) : w.length = n := by
  rw [← size_contents hin, h, Array.size_ofFn]

omit [Zero α] in
theorem Inside.keepFactors (hin : w.Inside s) (hpos : 0 < w.length) (f : Factors α) :
    w.Inside (s.keepFactors f).2 ∧ w.contents (s.keepFactors f).2 = w.contents s := by
  rw [Inside, contents, contents, Store.block_keepFactors_of_lt f (hin.lt_blocks hpos)]
  exact ⟨hin, rfl⟩

theorem cellAt_contents (hin : w.Inside s) (hi : i < w.length) :
    PivotedLU.cellAt (w.contents s) i = w.cellAt s i := by
  have hmin : min (w.offset + w.length) (s.block w.block).size = w.offset + w.length :=
    Nat.min_eq_left hin
  have hlt : w.offset + i < (s.block w.block).size := Nat.lt_of_lt_of_le (by omega) hin
  simp [PivotedLU.cellAt, cellAt, contents, hmin, hi, hlt]

theorem contents_eq {a : Array α} (hin : w.Inside s) (hsize : a.size = w.length)
    (h : ∀ i < w.length, w.cellAt s i = PivotedLU.cellAt a i) : w.contents s = a := by
  refine eq_of_cellAt ((size_contents hin).trans hsize.symm) fun i hi => ?_
  rw [size_contents hin] at hi
  rw [cellAt_contents hin hi, h i hi]

end Window

end PivotedLU
