import Mathlib.Algebra.Order.Field.Power
import Mathlib.Data.Rat.Cast.Order
import Mathlib.Tactic.FieldSimp
import Mathlib.Tactic.Linarith
import Mathlib.Tactic.NormNum
import Mathlib.Tactic.Positivity
import Mathlib.Tactic.Ring
import PivotedLU.Binary64

/-!
# The nearest binary64 number

Which quotients round to a number, and that the bits computed for such a quotient are those of the
number. The numerators and denominators are read as rational numbers throughout.
-/

namespace PivotedLU.Binary64

variable {num den m : Nat} {q : Int} {r : ℚ}

/-! ## Quotients -/

theorem scale_snd_pos (n : Nat) {base : Nat} (hbase : 0 < base) (e : Int) : 0 < (scale n base e).2 := by
  unfold scale
  split
  · exact Nat.one_pos
  · exact Nat.pow_pos hbase

theorem scale_fst_pos {n base : Nat} (hn : 0 < n) (hbase : 0 < base) (e : Int) :
    0 < (scale n base e).1 := by
  unfold scale
  split
  · exact Nat.mul_pos hn (Nat.pow_pos hbase)
  · exact hn

theorem scale_div (n : Nat) {base : Nat} (hbase : 0 < base) (e : Int) :
    ((scale n base e).1 : ℚ) / (scale n base e).2 = n * (base : ℚ) ^ e := by
  have hbase' : (base : ℚ) ≠ 0 := by exact_mod_cast hbase.ne'
  unfold scale
  split
  next h =>
    obtain ⟨k, rfl⟩ := Int.eq_ofNat_of_zero_le h
    simp
  next h =>
    obtain ⟨k, rfl⟩ : ∃ k : Nat, e = -k := ⟨(-e).toNat, by omega⟩
    simp [div_eq_mul_inv]

theorem scale_one_div {base : Nat} (hbase : 0 < base) (e : Int) :
    ((scale 1 base e).1 : ℚ) / (scale 1 base e).2 = (base : ℚ) ^ e := by
  rw [scale_div 1 hbase e, Nat.cast_one, one_mul]

theorem lt_div_scale_iff (hden : 0 < den) (e : Int) :
    num * (scale den 2 e).2 < (scale den 2 e).1 ↔ (num : ℚ) / den < 2 ^ e := by
  have hpos : (0 : ℚ) < (scale den 2 e).2 := by exact_mod_cast scale_snd_pos den Nat.two_pos e
  have hden' : (0 : ℚ) < den := by exact_mod_cast hden
  have hscale : ((scale den 2 e).1 : ℚ) / (scale den 2 e).2 = den * 2 ^ e :=
    scale_div den Nat.two_pos e
  rw [div_lt_iff₀ hden', mul_comm ((2 : ℚ) ^ e), ← hscale, lt_div_iff₀ hpos]
  exact_mod_cast Iff.rfl

theorem floorLog2_spec (hnum : 0 < num) (hden : 0 < den) :
    (2 : ℚ) ^ floorLog2 num den ≤ num / den ∧ (num : ℚ) / den < 2 ^ (floorLog2 num den + 1) := by
  have hden' : (0 : ℚ) < den := by exact_mod_cast hden
  have hnum₁ : (2 : ℚ) ^ (num.log2 : Int) ≤ num := by
    exact_mod_cast Nat.log2_self_le hnum.ne'
  have hnum₂ : (num : ℚ) < 2 ^ ((num.log2 : Int) + 1) := by
    exact_mod_cast Nat.lt_log2_self
  have hden₁ : (2 : ℚ) ^ (den.log2 : Int) ≤ den := by
    exact_mod_cast Nat.log2_self_le hden.ne'
  have hden₂ : (den : ℚ) < 2 ^ ((den.log2 : Int) + 1) := by
    exact_mod_cast Nat.lt_log2_self
  -- The quotient lies within a factor of two of the guess, on either side.
  have hlow : (2 : ℚ) ^ ((num.log2 : Int) - den.log2 - 1) ≤ num / den := by
    rw [le_div_iff₀ hden']
    calc (2 : ℚ) ^ ((num.log2 : Int) - den.log2 - 1) * den
      _ ≤ 2 ^ ((num.log2 : Int) - den.log2 - 1) * 2 ^ ((den.log2 : Int) + 1) := by gcongr
      _ = 2 ^ (num.log2 : Int) := by
          rw [← zpow_add₀ two_ne_zero]
          congr 1
          omega
      _ ≤ num := hnum₁
  have hhigh : (num : ℚ) / den < 2 ^ ((num.log2 : Int) - den.log2 + 1) := by
    rw [div_lt_iff₀ hden']
    calc (num : ℚ) < 2 ^ ((num.log2 : Int) + 1) := hnum₂
      _ = 2 ^ ((num.log2 : Int) - den.log2 + 1) * 2 ^ (den.log2 : Int) := by
          rw [← zpow_add₀ two_ne_zero]
          congr 1
          omega
      _ ≤ 2 ^ ((num.log2 : Int) - den.log2 + 1) * den := by gcongr
  unfold floorLog2
  dsimp only
  split
  next h =>
    rw [lt_div_scale_iff hden] at h
    rw [sub_add_cancel]
    exact ⟨hlow, h⟩
  next h =>
    rw [lt_div_scale_iff hden, not_lt] at h
    exact ⟨h, hhigh⟩

theorem roundDiv_add {f t : Nat} (ht : t < den) : roundDiv (den * f + t) den =
    if 2 * t < den then f else if den < 2 * t then f + 1 else f + f % 2 := by
  have hfloor : (den * f + t) / den = f := by
    rw [Nat.mul_add_div (Nat.zero_lt_of_lt ht), Nat.div_eq_of_lt ht, Nat.add_zero]
  have hrem : (den * f + t) % den = t := by
    rw [Nat.mul_add_mod, Nat.mod_eq_of_lt ht]
  unfold roundDiv
  simp only [hfloor, hrem]

theorem exists_floor (num : Nat) (hden : 0 < den) : ∃ f t, t < den ∧ num = den * f + t :=
  ⟨num / den, num % den, Nat.mod_lt num hden, (Nat.div_add_mod num den).symm⟩

theorem cast_floor_div (hden : 0 < den) (f t : Nat) :
    ((den * f + t : Nat) : ℚ) / den = f + (t : ℚ) / den := by
  have hden' : (den : ℚ) ≠ 0 := by exact_mod_cast hden.ne'
  push_cast
  rw [add_div, mul_div_cancel_left₀ _ hden']

theorem roundDiv_near (num : Nat) (hden : 0 < den) :
    (num : ℚ) / den - 1 / 2 ≤ roundDiv num den ∧ (roundDiv num den : ℚ) ≤ num / den + 1 / 2 := by
  have hden' : (0 : ℚ) < den := by exact_mod_cast hden
  obtain ⟨f, t, ht, rfl⟩ := exists_floor num hden
  have hlow : (0 : ℚ) ≤ t / den := by positivity
  have hhigh : (t : ℚ) / den ≤ 1 := by
    rw [div_le_one₀ hden']
    exact_mod_cast ht.le
  have hdown : 2 * t ≤ den → (t : ℚ) / den ≤ 1 / 2 := by
    intro h
    rw [div_le_iff₀ hden']
    have : (2 * t : ℚ) ≤ den := by exact_mod_cast h
    linarith
  have hup : den ≤ 2 * t → 1 / 2 ≤ (t : ℚ) / den := by
    intro h
    rw [le_div_iff₀ hden']
    have : (den : ℚ) ≤ 2 * t := by exact_mod_cast h
    linarith
  rw [cast_floor_div hden, roundDiv_add ht]
  split
  next h =>
    have := hdown h.le
    constructor <;> linarith
  next h =>
    have := hup (Nat.le_of_not_lt h)
    split
    next =>
      push_cast
      constructor <;> linarith
    next h' =>
      have := hdown (Nat.le_of_not_lt h')
      have heven : ((f % 2 : Nat) : ℚ) ≤ 1 := by exact_mod_cast Nat.le_of_lt_succ (Nat.mod_lt f two_pos)
      have : (0 : ℚ) ≤ (f % 2 : Nat) := Nat.cast_nonneg _
      push_cast at *
      constructor <;> linarith

theorem roundDiv_eq {k : Nat} (hden : 0 < den) (hlow : (k : ℚ) - 1 / 2 ≤ num / den)
    (hhigh : (num : ℚ) / den ≤ k + 1 / 2)
    (htie : (num : ℚ) / den = k - 1 / 2 ∨ (num : ℚ) / den = k + 1 / 2 → k % 2 = 0) :
    roundDiv num den = k := by
  have hden' : (0 : ℚ) < den := by exact_mod_cast hden
  -- The conditions in terms of the quotient without remainder and the remainder.
  obtain ⟨f, t, ht, rfl⟩ := exists_floor num hden
  have hlow' : 2 * k * den ≤ 2 * (den * f + t) + den := by
    rw [le_div_iff₀ hden'] at hlow
    have : (2 * k * den : ℚ) ≤ 2 * (den * f + t : Nat) + den := by linarith
    exact_mod_cast this
  have hhigh' : 2 * (den * f + t) ≤ (2 * k + 1) * den := by
    rw [div_le_iff₀ hden'] at hhigh
    have : (2 * (den * f + t : Nat) : ℚ) ≤ (2 * k + 1) * den := by linarith
    exact_mod_cast this
  have hle : f ≤ k := by
    by_contra hlt
    have := Nat.mul_le_mul_left den (Nat.lt_of_not_le hlt)
    nlinarith
  have hge : k ≤ f + 1 := by
    by_contra hlt
    have := Nat.mul_le_mul_left den (Nat.lt_of_not_le hlt)
    nlinarith
  rw [roundDiv_add ht]
  rcases Nat.eq_or_lt_of_le hle with rfl | hlt
  · have htwice : 2 * t ≤ den := by nlinarith
    rcases Nat.eq_or_lt_of_le htwice with heq | hless
    · have heven : f % 2 = 0 := by
        refine htie (.inr ?_)
        rw [div_eq_iff hden'.ne']
        have : (2 * t : ℚ) = den := by exact_mod_cast heq
        push_cast
        linarith
      rw [if_neg (by omega), if_neg (by omega), heven, Nat.add_zero]
    · rw [if_pos hless]
  · obtain rfl : k = f + 1 := by omega
    have htwice : den ≤ 2 * t := by nlinarith
    rcases Nat.eq_or_lt_of_le htwice with heq | hless
    · have heven : (f + 1) % 2 = 0 := by
        refine htie (.inl ?_)
        rw [div_eq_iff hden'.ne']
        have : (den : ℚ) = 2 * t := by exact_mod_cast heq
        push_cast
        linarith
      rw [if_neg (by omega), if_neg (by omega)]
      omega
    · rw [if_neg (by omega), if_pos hless]

/-! ## Numbers -/

/-- The mantissas and exponents of numbers: only the smallest ones have a short mantissa. -/
structure Canonical (m : Nat) (q : Int) : Prop where
  lt : m < 2 * leadingWeight
  exponent_ge : -1074 ≤ q
  exponent_le : q ≤ 971
  normal : q = -1074 ∨ leadingWeight ≤ m

theorem cast_leadingWeight : ((leadingWeight : Nat) : ℚ) = 2 ^ 52 := by
  norm_num [leadingWeight]

theorem Canonical.bits_lt (h : Canonical m q) : (q + 1074).toNat * leadingWeight + m < infinityBits := by
  have hlt := h.lt
  have hle := h.exponent_le
  unfold leadingWeight at *
  unfold infinityBits
  omega

/-- The number with the given sign, mantissa and exponent. -/
def assemble (negative : Bool) (m : Nat) (q : Int) : Float :=
  Float.ofBits (UInt64.ofNat (signBits negative + ((q + 1074).toNat * leadingWeight + m)))

/-- The middle between a number and the one below it. Below a power of two the gap is half as wide. -/
def below (m : Nat) (q : Int) : ℚ :=
  if m = leadingWeight ∧ q ≠ -1074 then (m - 1 / 4) * 2 ^ q else (m - 1 / 2) * 2 ^ q

/-- The middle between a number and the one above it. -/
def above (m : Nat) (q : Int) : ℚ :=
  (m + 1 / 2) * 2 ^ q

/-- The quotients that are nearest to a number; a middle belongs to the number with the even
mantissa. -/
structure Rounds (m : Nat) (q : Int) (r : ℚ) : Prop where
  low : below m q ≤ r
  high : r ≤ above m q
  tie : r = below m q ∨ r = above m q → m % 2 = 0

theorem two_zpow_pos (e : Int) : (0 : ℚ) < 2 ^ e :=
  zpow_pos two_pos e

theorem below_ge (m : Nat) (q : Int) : ((m : ℚ) - 1 / 2) * 2 ^ q ≤ below m q := by
  unfold below
  split
  · have := two_zpow_pos q
    nlinarith
  · exact le_refl _

theorem below_pos (hm : 0 < m) (q : Int) : 0 < below m q := by
  have hm' : (1 : ℚ) ≤ m := by exact_mod_cast hm
  refine lt_of_lt_of_le ?_ (below_ge m q)
  have := two_zpow_pos q
  nlinarith

theorem Rounds.eq_zero (h : Rounds m q 0) (hcanon : Canonical m q) : m = 0 ∧ q = -1074 := by
  have hm : m = 0 := by
    by_contra hm
    exact absurd h.low (below_pos (Nat.pos_of_ne_zero hm) q).not_ge
  subst hm
  exact ⟨rfl, hcanon.normal.resolve_right (by decide)⟩

theorem rounds_self (m : Nat) (q : Int) : Rounds m q (m * 2 ^ q) := by
  have hpow := two_zpow_pos q
  have hlow : below m q < m * 2 ^ q := by
    unfold below
    split <;> nlinarith
  have hhigh : (m : ℚ) * 2 ^ q < above m q := by
    unfold above
    nlinarith
  exact ⟨hlow.le, hhigh.le, fun h => (h.elim hlow.ne' hhigh.ne).elim⟩

theorem rounds_zero (q : Int) : Rounds 0 q 0 := by
  have hself := rounds_self 0 q
  rwa [Nat.cast_zero, zero_mul] at hself

/-- Most quotients that round to a number have its exponent; those between a power of two and the
middle below it have the next smaller one. -/
theorem Rounds.exponent (h : Rounds m q (num / den)) (hcanon : Canonical m q) (hnum : 0 < num)
    (hden : 0 < den) :
    max (floorLog2 num den - 52) (-1074) = q ∨
      m = leadingWeight ∧ q ≠ -1074 ∧ max (floorLog2 num den - 52) (-1074) = q - 1 ∧
        (num : ℚ) / den < m * 2 ^ q := by
  obtain ⟨hfloor, hceil⟩ := floorLog2_spec hnum hden
  have hpow := two_zpow_pos q
  have hone : (1 : ℚ) < 2 := one_lt_two
  have hshift : ∀ k : Nat, (2 : ℚ) ^ (q + k) = 2 ^ k * 2 ^ q := by
    intro k
    rw [zpow_add₀ two_ne_zero, zpow_natCast, mul_comm]
  have hlt : (m : ℚ) + 1 ≤ 2 ^ 53 := by exact_mod_cast hcanon.lt
  have hupper : floorLog2 num den < q + (53 : Nat) := by
    rw [← zpow_lt_zpow_iff_right₀ hone, hshift]
    calc (2 : ℚ) ^ floorLog2 num den ≤ num / den := hfloor
      _ ≤ (m + 1 / 2) * 2 ^ q := h.high
      _ < 2 ^ 53 * 2 ^ q := by nlinarith
  by_cases hq : q = -1074
  · left
    omega
  have hnormal : (2 ^ 52 : ℚ) ≤ m := by exact_mod_cast hcanon.normal.resolve_left hq
  have hge := hcanon.exponent_ge
  rcases le_or_gt ((2 : ℚ) ^ 52 * 2 ^ q) (num / den : ℚ) with hle | hless
  · left
    have hlower : q + (52 : Nat) < floorLog2 num den + 1 := by
      rw [← zpow_lt_zpow_iff_right₀ hone, hshift]
      exact lt_of_le_of_lt hle hceil
    omega
  · have hlow := h.low
    unfold below at hlow
    split at hlow
    next hpower =>
      obtain ⟨rfl, -⟩ := hpower
      rw [cast_leadingWeight] at hlow ⊢
      have hlower : q + (51 : Nat) < floorLog2 num den + 1 := by
        rw [← zpow_lt_zpow_iff_right₀ hone, hshift]
        refine lt_of_le_of_lt ?_ hceil
        refine le_trans ?_ hlow
        have : (0 : ℚ) ≤ 2 ^ 52 - 1 / 4 - 2 ^ 51 := by norm_num
        nlinarith
      have hupper' : floorLog2 num den < q + (52 : Nat) := by
        rw [← zpow_lt_zpow_iff_right₀ hone, hshift]
        exact lt_of_le_of_lt hfloor hless
      exact .inr ⟨rfl, hq, by omega, hless⟩
    next hother =>
      have hne : m ≠ leadingWeight := fun heq => hother ⟨heq, hq⟩
      have hgt : (2 ^ 52 : ℚ) + 1 ≤ m := by
        exact_mod_cast lt_of_le_of_ne (hcanon.normal.resolve_left hq) (Ne.symm hne)
      have : (2 : ℚ) ^ 52 * 2 ^ q < (m - 1 / 2) * 2 ^ q := by nlinarith
      linarith

theorem nearestBits_eq (h : Rounds m q (num / den)) (hcanon : Canonical m q) (hden : 0 < den) :
    nearestBits num den = (q + 1074).toNat * leadingWeight + m := by
  have hpow := two_zpow_pos q
  rcases Nat.eq_zero_or_pos num with rfl | hnum
  · rw [Nat.cast_zero, zero_div] at h
    obtain ⟨rfl, rfl⟩ := h.eq_zero hcanon
    rfl
  -- In units of the exponent that is chosen.
  have hunits : ∀ e : Int, ((num * (scale 1 2 e).2 : Nat) : ℚ) / (den * (scale 1 2 e).1 : Nat) =
      num / den / 2 ^ e := by
    intro e
    have hscale : ((scale 1 2 e).1 : ℚ) / (scale 1 2 e).2 = 2 ^ e := scale_one_div Nat.two_pos e
    rw [← hscale, div_div_div_eq]
    push_cast
    rfl
  have hpos : ∀ e : Int, 0 < den * (scale 1 2 e).1 :=
    fun e => Nat.mul_pos hden (scale_fst_pos Nat.one_pos Nat.two_pos e)
  unfold nearestBits
  rw [if_neg hnum.ne']
  dsimp only
  rcases h.exponent hcanon hnum hden with he | ⟨rfl, hq, he, hless⟩
  · rw [he, roundDiv_eq (hpos q)]
    · rw [hunits, le_div_iff₀ hpow]
      exact le_trans (below_ge m q) h.low
    · rw [hunits, div_le_iff₀ hpow]
      exact h.high
    · rw [hunits, div_eq_iff hpow.ne', div_eq_iff hpow.ne']
      rintro (htie | htie)
      · exact h.tie (.inl (le_antisymm (htie ▸ below_ge m q) h.low))
      · exact h.tie (.inr htie)
  · -- Just below a power of two the mantissa is rounded up to twice the leading weight.
    have hhalf : (2 : ℚ) ^ (q - 1) = 2 ^ q / 2 := zpow_sub_one₀ two_ne_zero q
    have hlow := h.low
    rw [below, if_pos ⟨rfl, hq⟩] at hlow
    have hrounded : roundDiv (num * (scale 1 2 (q - 1)).2) (den * (scale 1 2 (q - 1)).1) =
        2 * leadingWeight := by
      refine roundDiv_eq (hpos (q - 1)) ?_ ?_ fun _ => rfl
      · rw [hunits, hhalf, le_div_iff₀ (by positivity)]
        push_cast
        linarith
      · rw [hunits, hhalf, div_le_iff₀ (by positivity)]
        push_cast
        linarith
    have hge := hcanon.exponent_ge
    rw [he, hrounded]
    unfold leadingWeight
    omega

end PivotedLU.Binary64
