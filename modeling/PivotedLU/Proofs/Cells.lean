import Mathlib.Algebra.Group.Nat.Defs
import Mathlib.Logic.Function.Basic
import PivotedLU.Cells

/-!
# Lawful cells

The kernels reach their cells only through reading and writing. `Cells.Lawful` says what they may
rely on: the first cells of a run can be read and written on every good state, and a write changes
one cell and keeps the state good. What a good state is may be chosen freely, so it can also say
what happens to everything else.
-/

namespace PivotedLU

variable {σ α : Type}

/-! ## Places in row-major order -/

theorem place_lt {rows cols i j : Nat} (hi : i < rows) (hj : j < cols) :
    i * cols + j < rows * cols := by
  have h : (i + 1) * cols ≤ rows * cols := Nat.mul_le_mul_right _ hi
  rw [Nat.succ_mul] at h
  omega

theorem place_div {cols i j : Nat} (hj : j < cols) : (i * cols + j) / cols = i := by
  rw [Nat.mul_comm, Nat.mul_add_div (by omega), Nat.div_eq_of_lt hj, Nat.add_zero]

theorem place_mod {cols i j : Nat} (hj : j < cols) : (i * cols + j) % cols = j := by
  rw [Nat.mul_comm, Nat.mul_add_mod, Nat.mod_eq_of_lt hj]

theorem place_inj {cols i i' j j' : Nat} (hj : j < cols) (hj' : j' < cols) :
    i * cols + j = i' * cols + j' ↔ i = i' ∧ j = j' := by
  constructor
  · intro h
    have hdiv : (i * cols + j) / cols = i' := h ▸ place_div hj'
    have hmod : (i * cols + j) % cols = j' := h ▸ place_mod hj'
    exact ⟨(place_div hj).symm.trans hdiv, (place_mod hj).symm.trans hmod⟩
  · rintro ⟨rfl, rfl⟩
    rfl

theorem exists_place {rows cols k : Nat} (hk : k < rows * cols) :
    ∃ i < rows, ∃ j < cols, i * cols + j = k := by
  have hcols : 0 < cols := Nat.pos_of_ne_zero fun h => by simp [h] at hk
  exact ⟨k / cols, Nat.div_lt_of_lt_mul (Nat.mul_comm rows cols ▸ hk), k % cols, Nat.mod_lt k hcols,
    Nat.div_add_mod' k cols⟩

/-- A write in row-major order, read back by row and column. -/
theorem update_place {f : Nat → α} {n r c i j : Nat} (hc : c < n) (hj : j < n) (v : α) :
    Function.update f (r * n + c) v (i * n + j) = if i = r ∧ j = c then v else f (i * n + j) := by
  simp only [Function.update_apply, place_inj hj hc]

theorem ofNat_inj {a b : Nat} (ha : a < 2 ^ 63) (hb : b < 2 ^ 63) :
    Int64.ofNat a = Int64.ofNat b ↔ a = b := by
  constructor
  · intro h
    rw [← Int64.toNatClampNeg_ofNat_of_lt ha, h, Int64.toNatClampNeg_ofNat_of_lt hb]
  · rintro rfl
    rfl

theorem exists_ofNat {v : Int64} (h : 0 ≤ v) : ∃ k < 2 ^ 63, v = Int64.ofNat k :=
  ⟨v.toNatClampNeg, v.toNatClampNeg_lt, (v.ofNat_toNatClampNeg h).symm⟩

/-! ## Laws -/

/-- On the states of `ok` the first `size` cells hold what `get` says, and a write replaces what
one of them holds. -/
structure Cells.Lawful (c : Cells σ α) (size : Nat) (ok : σ → Prop) (get : σ → Nat → α) : Prop where
  read : ∀ {s i}, ok s → i < size → c.read s i = .ok (get s i)
  write : ∀ {s i}, ok s → i < size → ∀ v,
    ∃ s', c.write s i v = .ok s' ∧ ok s' ∧ get s' = Function.update (get s) i v

/-- Exchanging what two cells hold. -/
theorem Cells.Lawful.exchange {c : Cells σ α} {size : Nat} {ok : σ → Prop} {get : σ → Nat → α}
    (h : c.Lawful size ok get) {s : σ} (hs : ok s) {i j : Nat} (hi : i < size) (hj : j < size) :
    ∃ s', (do
        let x ← c.read s i
        let y ← c.read s j
        let s ← c.write s i y
        c.write s j x) = .ok s' ∧ ok s' ∧
      get s' = Function.update (Function.update (get s) i (get s j)) j (get s i) := by
  obtain ⟨s₁, hw₁, hs₁, hget₁⟩ := h.write hs hi (get s j)
  obtain ⟨s₂, hw₂, hs₂, hget₂⟩ := h.write hs₁ hj (get s i)
  refine ⟨s₂, ?_, hs₂, by rw [hget₂, hget₁]⟩
  rw [h.read hs hi, h.read hs hj]
  simp only [bind, Except.bind, hw₁, hw₂]

/-- The cells of a run taken at the given places. -/
def Cells.along (c : Cells σ α) (place : Nat → Nat) : Cells σ α where
  read s i := c.read s (place i)
  write s i v := c.write s (place i) v

/-- Cells at other places keep what they held in `s`. -/
theorem Cells.Lawful.along {c : Cells σ α} {size m : Nat} {ok : σ → Prop} {get : σ → Nat → α}
    (h : c.Lawful size ok get) {place : Nat → Nat} (hinj : Function.Injective place)
    (hplace : ∀ i < m, place i < size) (s : σ) :
    (c.along place).Lawful m
      (fun s' => ok s' ∧ ∀ k, (∀ i < m, k ≠ place i) → get s' k = get s k)
      (fun s' i => get s' (place i)) where
  read hs' hi := h.read hs'.1 (hplace _ hi)
  write {s' i} hs' hi v := by
    obtain ⟨s₁, hw, hs₁, hget⟩ := h.write hs'.1 (hplace i hi) v
    refine ⟨s₁, hw, ⟨hs₁, fun k hk => ?_⟩, ?_⟩
    · rw [hget, Function.update_of_ne (hk i hi)]
      exact hs'.2 k hk
    · rw [hget]
      exact Function.update_comp_eq_of_injective (get s') hinj i v

/-- A reader that finds the table `f` in row-major order on every state of `ok`. -/
def Reader.Shows (a : Reader σ α) (rows cols : Nat) (ok : σ → Prop) (f : Nat → Nat → α) : Prop :=
  ∀ {s i j}, ok s → i < rows → j < cols → a s (i * cols + j) = .ok (f i j)

theorem Reader.at_ofNat (r : Reader σ α) (s : σ) {k : Nat} (h : k < 2 ^ 63) :
    r.at s (Int64.ofNat k) = r s k := by
  have hneg : ¬ Int64.ofNat k < 0 := Int64.not_lt.mpr (Int64.zero_le_ofNat_of_lt h)
  rw [Reader.at, if_neg hneg, Int64.toNatClampNeg_ofNat_of_lt h]

/-! ## Cells that are there -/

/-- The first `size` cells can be read on every state of `ok`. -/
def Reader.Readable (a : Reader σ α) (size : Nat) (ok : σ → Prop) : Prop :=
  ∀ s, ok s → ∀ i < size, ∃ v, a s i = .ok v

/-- The first `size` cells can be read and written on every state of `ok`, and a write does not
leave it. -/
structure Cells.Usable (c : Cells σ α) (size : Nat) (ok : σ → Prop) : Prop where
  readable : Reader.Readable c.read size ok
  write : ∀ {s i}, ok s → i < size → ∀ v, ∃ s', c.write s i v = .ok s' ∧ ok s'

theorem Cells.Lawful.usable {c : Cells σ α} {size : Nat} {ok : σ → Prop} {get : σ → Nat → α}
    (h : c.Lawful size ok get) : c.Usable size ok where
  readable _ hs _ hi := ⟨_, h.read hs hi⟩
  write hs hi v := by
    obtain ⟨s', hw, hs', -⟩ := h.write hs hi v
    exact ⟨s', hw, hs'⟩

theorem Cells.Usable.along {c : Cells σ α} {size m : Nat} {ok : σ → Prop} (h : c.Usable size ok)
    {place : Nat → Nat} (hplace : ∀ i < m, place i < size) : (c.along place).Usable m ok where
  readable s hs i hi := h.readable s hs _ (hplace i hi)
  write hs hi v := h.write hs (hplace _ hi) v

theorem Reader.fixed_readable {a : Array α} {size : Nat} (h : size ≤ a.size) (ok : σ → Prop) :
    (Reader.fixed a).Readable size ok := by
  intro s _ i hi
  have hlt : i < a.size := Nat.lt_of_lt_of_le hi h
  exact ⟨a[i], by simp [Reader.fixed, hlt]⟩

/-- A write to one of the first `size` cells does not leave `ok`. -/
def Cells.Keeps (c : Cells σ α) (size : Nat) (ok : σ → Prop) : Prop :=
  ∀ s i v t, ok s → i < size → c.write s i v = .ok t → ok t

/-! ## Arrays -/

/-- What an array holds at a place; zero beyond its end. -/
def cellAt [Zero α] (a : Array α) (k : Nat) : α :=
  a.getD k 0

theorem cellAt_eq [Zero α] {a : Array α} {k : Nat} (h : k < a.size) : cellAt a k = a[k] := by
  simp [cellAt, h]

theorem getElem?_eq_cellAt [Zero α] {a : Array α} {k : Nat} (h : k < a.size) :
    a[k]? = some (cellAt a k) := by
  rw [Array.getElem?_eq_getElem h, cellAt_eq h]

theorem eq_of_cellAt [Zero α] {a b : Array α} (hsize : a.size = b.size)
    (h : ∀ k < a.size, cellAt a k = cellAt b k) : a = b := by
  refine Array.ext hsize fun k ha hb => ?_
  rw [← cellAt_eq ha, ← cellAt_eq hb]
  exact h k ha

theorem Reader.fixed_eq [Zero α] {a : Array α} {k : Nat} (h : k < a.size) (s : σ) :
    Reader.fixed a s k = .ok (cellAt a k) := by
  simp [Reader.fixed, h, cellAt_eq]

theorem Reader.fixed_shows [Zero α] {a : Array α} {rows cols : Nat} (h : rows * cols ≤ a.size)
    (ok : σ → Prop) : (Reader.fixed a).Shows rows cols ok fun i j => cellAt a (i * cols + j) :=
  fun _ hi hj => fixed_eq (Nat.lt_of_lt_of_le (place_lt hi hj) h) _

/-- `b` has the length of `a` and differs from it at most at the places in `touched`. -/
structure ChangedOnly (touched : Nat → Prop) (a b : Array α) : Prop where
  size : b.size = a.size
  cell : ∀ k, ¬ touched k → b[k]? = a[k]?

theorem ChangedOnly.refl (touched : Nat → Prop) (a : Array α) : ChangedOnly touched a a :=
  ⟨rfl, fun _ _ => rfl⟩

theorem ChangedOnly.trans {p q touched : Nat → Prop} {a b c : Array α} (h : ChangedOnly p a b)
    (h' : ChangedOnly q b c) (hp : ∀ k, p k → touched k) (hq : ∀ k, q k → touched k) :
    ChangedOnly touched a c := by
  refine ⟨h'.size.trans h.size, fun k hk => ?_⟩
  rw [h'.cell k fun hqk => hk (hq k hqk), h.cell k fun hpk => hk (hp k hpk)]

theorem ChangedOnly.set {touched : Nat → Prop} {a b : Array α} (h : ChangedOnly touched a b) {k : Nat}
    (hk : touched k) (v : α) (hb : k < b.size) : ChangedOnly touched a (b.set k v hb) := by
  refine ⟨by simpa using h.size, fun i hi => ?_⟩
  have hne : k ≠ i := by rintro rfl; exact hi hk
  rw [Array.getElem?_set_ne hb hne]
  exact h.cell i hi

/-- The first cells of an array; the rest of it stays as it was in `a`. -/
theorem Cells.array_lawful [Zero α] {a : Array α} {size : Nat} (h : size ≤ a.size) :
    Cells.array.Lawful size (ChangedOnly (· < size) a) cellAt where
  read {b i} hb hi := by
    have hi : i < b.size := hb.size ▸ Nat.lt_of_lt_of_le hi h
    simp [Cells.array, hi, cellAt_eq]
  write {b i} hb hi v := by
    have hib : i < b.size := hb.size ▸ Nat.lt_of_lt_of_le hi h
    refine ⟨b.set i v hib, by simp [Cells.array, hib], hb.set hi v hib, ?_⟩
    funext j
    rcases eq_or_ne j i with rfl | hj
    · simp [cellAt, hib]
    · simp [cellAt, hj, Array.getElem?_set_ne hib hj.symm]

theorem Cells.array_usable (size : Nat) :
    (Cells.array : Cells (Array α) α).Usable size (·.size = size) where
  readable a ha i hi := by
    have hlt : i < a.size := ha ▸ hi
    exact ⟨a[i], by simp [Cells.array, hlt]⟩
  write {a i} ha hi v := by
    have hlt : i < a.size := ha ▸ hi
    exact ⟨a.set i v hlt, by simp [Cells.array, hlt], by simpa using ha⟩

end PivotedLU
