import Mathlib.Algebra.Ring.Int.Parity
import Mathlib.Data.Int.Log
import Mathlib.Data.Rat.Floor
import PivotedLU.Proofs.Decimal.Nearest

/-!
# Neighbouring numbers

The number that a quotient rounds to is as near to it as any other, and every quotient that is not
too large rounds to one.
-/

namespace PivotedLU.Binary64

variable {num den m m' k : Nat} {q q' e : Int} {r x : ℚ}

/-! ## Nearest integers -/

/-- No integer is nearer to `r`, and of two equally near ones `c` is the even one. -/
structure NearestInt (r : ℚ) (c : Int) : Prop where
  near : |r - c| ≤ 1 / 2
  even : |r - c| = 1 / 2 → Even c

theorem NearestInt.neg {c : Int} (h : NearestInt r c) : NearestInt (-r) (-c) := by
  have hdistance : |-r - (-c : Int)| = |r - c| := by
    rw [← abs_neg]
    push_cast
    congr 1
    ring
  refine ⟨hdistance ▸ h.near, fun htie => ?_⟩
  rw [even_neg]
  exact h.even (hdistance ▸ htie)

theorem NearestInt.of_le {c : Int} (h : NearestInt r c) (hle : |x - c| ≤ |r - c|) : NearestInt x c :=
  ⟨hle.trans h.near, fun htie => h.even (le_antisymm h.near (htie ▸ hle))⟩

theorem NearestInt.bounds (h : NearestInt r k) : (k : ℚ) - 1 / 2 ≤ r ∧ r ≤ k + 1 / 2 := by
  have hnear := abs_le.mp h.near
  rw [Int.cast_natCast] at hnear
  constructor <;> linarith

theorem NearestInt.tie (h : NearestInt r k) (htie : r = k - 1 / 2 ∨ r = k + 1 / 2) : k % 2 = 0 := by
  rw [← Nat.even_iff, ← Int.even_coe_nat]
  refine h.even ?_
  rw [Int.cast_natCast, abs_eq (by norm_num)]
  rcases htie with rfl | rfl
  · right
    ring
  · left
    ring

theorem NearestInt.roundDiv_eq (hden : 0 < den) (h : NearestInt (num / den) k) : roundDiv num den = k :=
  Binary64.roundDiv_eq hden h.bounds.1 h.bounds.2 h.tie

theorem nearestInt_roundDiv (num : Nat) (hden : 0 < den) : NearestInt (num / den) (roundDiv num den) := by
  have hden' : (0 : ℚ) < den := by exact_mod_cast hden
  obtain ⟨hlow, hhigh⟩ := roundDiv_near num hden
  refine ⟨abs_le.mpr ⟨?_, ?_⟩, fun htie => ?_⟩
  · rw [Int.cast_natCast]
    linarith
  · rw [Int.cast_natCast]
    linarith
  obtain ⟨f, t, ht, rfl⟩ := exists_floor num hden
  -- A remainder of one half is the only tie.
  have hhalf : (t : ℚ) / den = 1 / 2 → 2 * t = den := by
    intro heq
    rw [div_eq_iff hden'.ne'] at heq
    have : (2 * t : ℚ) = den := by linarith
    exact_mod_cast this
  rw [Int.even_coe_nat, Nat.even_iff]
  rw [cast_floor_div hden, Int.cast_natCast] at htie
  rw [roundDiv_add ht] at htie ⊢
  split at htie
  next hless =>
    rw [add_sub_cancel_left, abs_of_nonneg (by positivity)] at htie
    exact absurd (hhalf htie) (by omega)
  next hless =>
    split at htie
    next hmore =>
      have hbelow : (t : ℚ) / den < 1 := by
        rw [div_lt_one₀ hden']
        exact_mod_cast ht
      push_cast at htie
      rw [add_sub_add_left_eq_sub, abs_sub_comm, abs_of_pos (by linarith)] at htie
      exact absurd (hhalf (by linarith)) (by omega)
    next hmore =>
      rw [if_neg hless, if_neg hmore]
      omega

theorem exists_nearestInt (hr : 0 ≤ r) : ∃ k : Nat, NearestInt r k := by
  have hquotient : (r.num.toNat : ℚ) / r.den = r := by
    have hnum : ((r.num.toNat : Int) : ℚ) = r.num := by
      rw [Int.toNat_of_nonneg (Rat.num_nonneg.mpr hr)]
    rw [← Int.cast_natCast, hnum, Rat.num_div_den]
  have hnearest := nearestInt_roundDiv r.num.toNat r.den_pos
  rw [hquotient] at hnearest
  exact ⟨_, hnearest⟩

/-! ## Gaps -/

/-- With a smaller exponent a number stays below the smallest one that has the larger exponent. -/
theorem Canonical.le_of_exponent_lt (h : Canonical m q) (hlt : q < q') :
    (m : ℚ) * 2 ^ q ≤ (leadingWeight - 1 / 2) * 2 ^ q' := by
  have hm : (m : ℚ) + 1 ≤ 2 * leadingWeight := by exact_mod_cast h.lt
  have hpow : (2 : ℚ) ^ q ≤ 2 ^ q' / 2 := by
    have hhalf : (2 : ℚ) ^ (q' - 1) = 2 ^ q' / 2 := zpow_sub_one₀ two_ne_zero q'
    rw [← hhalf]
    exact zpow_le_zpow_right₀ one_le_two (by omega)
  have hpos := two_zpow_pos q
  calc (m : ℚ) * 2 ^ q ≤ (2 * leadingWeight - 1) * 2 ^ q := by nlinarith
    _ ≤ (2 * leadingWeight - 1) * (2 ^ q' / 2) := by
        rw [cast_leadingWeight]
        gcongr
    _ = (leadingWeight - 1 / 2) * 2 ^ q' := by ring

theorem exists_multiple (m : Nat) (hle : q ≤ q') : ∃ n : Nat, (m : ℚ) * 2 ^ q' = n * 2 ^ q := by
  obtain ⟨k, rfl⟩ : ∃ k : Nat, q' = q + k := ⟨(q' - q).toNat, by omega⟩
  refine ⟨m * 2 ^ k, ?_⟩
  rw [zpow_add₀ two_ne_zero, zpow_natCast]
  push_cast
  ring

theorem Canonical.normal_of_lt (h : Canonical m q) (hlt : q' < q) (hge : -1074 ≤ q') :
    (leadingWeight : ℚ) ≤ m := by
  exact_mod_cast h.normal.resolve_left (by omega)

theorem Canonical.above_le (h : Canonical m q) (h' : Canonical m' q')
    (hlt : (m : ℚ) * 2 ^ q < m' * 2 ^ q') : above m q ≤ (m * 2 ^ q + m' * 2 ^ q') / 2 := by
  have hpos := two_zpow_pos q
  rcases le_or_gt q q' with hle | hgt
  · obtain ⟨n, hn⟩ := exists_multiple m' hle
    rw [hn] at hlt ⊢
    have hnext : (m : ℚ) + 1 ≤ n := by exact_mod_cast lt_of_mul_lt_mul_right hlt hpos.le
    unfold above
    nlinarith
  · have hsmall := h'.le_of_exponent_lt hgt
    have hnormal := h.normal_of_lt hgt h'.exponent_ge
    nlinarith

theorem Canonical.le_below (h : Canonical m q) (h' : Canonical m' q')
    (hlt : (m' : ℚ) * 2 ^ q' < m * 2 ^ q) : (m * 2 ^ q + m' * 2 ^ q') / 2 ≤ below m q := by
  have hpos := two_zpow_pos q
  rcases le_or_gt q q' with hle | hgt
  · obtain ⟨n, hn⟩ := exists_multiple m' hle
    have hprevious : (n : ℚ) + 1 ≤ m := by
      rw [hn] at hlt
      exact_mod_cast lt_of_mul_lt_mul_right hlt hpos.le
    unfold below
    split
    next hpower =>
      -- No number with this exponent is smaller.
      obtain ⟨rfl, hq⟩ := hpower
      have hge := h.exponent_ge
      have hnormal : (leadingWeight : ℚ) ≤ m' := by
        exact_mod_cast h'.normal.resolve_left (by omega)
      have hpow : (2 : ℚ) ^ q ≤ 2 ^ q' := zpow_le_zpow_right₀ one_le_two hle
      have hweight : (0 : ℚ) ≤ leadingWeight := Nat.cast_nonneg _
      have hmono : (leadingWeight : ℚ) * 2 ^ q ≤ m' * 2 ^ q' := by gcongr
      exact absurd hlt hmono.not_gt
    next =>
      rw [hn]
      nlinarith
  · have hsmall := h'.le_of_exponent_lt hgt
    have hnormal := h.normal_of_lt hgt h'.exponent_ge
    have hge := h'.exponent_ge
    unfold below
    split
    next hpower =>
      rw [hpower.1] at hlt ⊢
      nlinarith
    next hother =>
      have hne : m ≠ leadingWeight := fun heq => hother ⟨heq, by omega⟩
      have hnext : (leadingWeight : ℚ) + 1 ≤ m := by
        have hle : leadingWeight ≤ m := by exact_mod_cast hnormal
        exact_mod_cast lt_of_le_of_ne hle hne.symm
      nlinarith

theorem Rounds.nearest (h : Rounds m q r) (hcanon : Canonical m q) (hcanon' : Canonical m' q') :
    |r - m * 2 ^ q| ≤ |r - m' * 2 ^ q'| := by
  rcases lt_trichotomy ((m : ℚ) * 2 ^ q) (m' * 2 ^ q') with hlt | heq | hgt
  · have hmiddle := h.high.trans (hcanon.above_le hcanon' hlt)
    refine le_trans (abs_le.mpr ⟨?_, ?_⟩) (neg_le_abs _)
    · linarith
    · linarith
  · rw [heq]
  · have hmiddle := (hcanon.le_below hcanon' hgt).trans h.low
    refine le_trans (abs_le.mpr ⟨?_, ?_⟩) (le_abs_self _)
    · linarith
    · linarith

/-! ## Existence -/

theorem exists_exponent (hr : 0 < r) : ∃ (e : Int) (x : ℚ), r = x * 2 ^ e ∧ -1074 ≤ e ∧ x < 2 ^ 53 ∧
    (e = -1074 ∨ 2 ^ 52 ≤ x) := by
  have hlow : (2 : ℚ) ^ Int.log 2 r ≤ r := Int.zpow_log_le_self (by norm_num) hr
  have hhigh : r < (2 : ℚ) ^ (Int.log 2 r + 1) := Int.lt_zpow_succ_log_self (by norm_num) r
  have hunits : ∀ e : Int, r = r / 2 ^ e * 2 ^ e := fun e => (div_mul_cancel₀ r (two_zpow_pos e).ne').symm
  have hupper : ∀ e : Int, Int.log 2 r - 52 ≤ e → r / 2 ^ e < 2 ^ 53 := by
    intro e he
    rw [div_lt_iff₀ (two_zpow_pos e), ← zpow_natCast, ← zpow_add₀ two_ne_zero]
    exact lt_of_lt_of_le hhigh (zpow_le_zpow_right₀ one_le_two (by omega))
  rcases le_total (Int.log 2 r - 52) (-1074) with hle | hle
  · exact ⟨-1074, _, hunits _, le_rfl, hupper _ hle, .inl rfl⟩
  · refine ⟨Int.log 2 r - 52, _, hunits _, hle, hupper _ le_rfl, .inr ?_⟩
    rw [le_div_iff₀ (two_zpow_pos _), ← zpow_natCast, ← zpow_add₀ two_ne_zero]
    refine le_trans (le_of_eq ?_) hlow
    congr 1
    omega

theorem NearestInt.rounds (h : NearestInt x k) (hlower : e = -1074 ∨ 2 ^ 52 ≤ x) :
    Rounds k e (x * 2 ^ e) := by
  have hpow := two_zpow_pos e
  have hhigh : x * 2 ^ e ≤ above k e := mul_le_mul_of_nonneg_right h.bounds.2 hpow.le
  by_cases hpower : k = leadingWeight ∧ e ≠ -1074
  · have hnormal := hlower.resolve_left hpower.2
    refine ⟨?_, hhigh, fun _ => hpower.1 ▸ rfl⟩
    rw [below, if_pos hpower, hpower.1, cast_leadingWeight]
    nlinarith
  · have hbelow : below k e = (k - 1 / 2) * 2 ^ e := if_neg hpower
    refine ⟨?_, hhigh, fun htie => h.tie ?_⟩
    · rw [hbelow]
      exact mul_le_mul_of_nonneg_right h.bounds.1 hpow.le
    · rw [hbelow] at htie
      exact htie.imp (mul_right_cancel₀ hpow.ne') (mul_right_cancel₀ hpow.ne')

/-- A mantissa that is rounded up to twice the leading weight belongs to the next exponent. -/
theorem NearestInt.rounds_carry (h : NearestInt x (2 * leadingWeight : Nat)) (hx : x < 2 ^ 53)
    (he : -1074 ≤ e) : Rounds leadingWeight (e + 1) (x * 2 ^ e) := by
  have hpow := two_zpow_pos e
  have hnext : (2 : ℚ) ^ (e + 1) = 2 ^ e * 2 := zpow_add_one₀ two_ne_zero e
  have hlow := h.bounds.1
  push_cast at hlow
  refine ⟨?_, ?_, fun _ => rfl⟩
  · rw [below, if_pos ⟨rfl, by omega⟩, hnext]
    nlinarith
  · rw [above, hnext, cast_leadingWeight]
    nlinarith

theorem exists_rounds (hr : 0 ≤ r) (hlt : r < 2 ^ (1023 : Int)) : ∃ m q, Canonical m q ∧ Rounds m q r := by
  rcases hr.eq_or_lt with rfl | hpos
  · exact ⟨0, -1074, ⟨by decide, by decide, by decide, .inl rfl⟩, rounds_zero _⟩
  obtain ⟨e, x, rfl, hge, hupper, hlower⟩ := exists_exponent hpos
  have hpow := two_zpow_pos e
  have hexponent : e ≤ 970 := by
    rcases hlower with rfl | hnormal
    · decide
    · have hless : (2 : ℚ) ^ (52 + e) < 2 ^ (1023 : Int) := by
        rw [zpow_add₀ two_ne_zero]
        exact lt_of_le_of_lt (mul_le_mul_of_nonneg_right hnormal hpow.le) hlt
      rw [zpow_lt_zpow_iff_right₀ one_lt_two] at hless
      omega
  clear hlt
  obtain ⟨k, hk⟩ := exists_nearestInt (pos_of_mul_pos_left hpos hpow.le).le
  obtain ⟨hlow, hhigh⟩ := hk.bounds
  have hle : k < 2 * leadingWeight + 1 := by
    have : (k : ℚ) < ((2 * leadingWeight + 1 : Nat) : ℚ) := by
      push_cast
      rw [cast_leadingWeight]
      linarith
    exact_mod_cast this
  rcases Nat.lt_succ_iff_lt_or_eq.mp hle with hlt | rfl
  · refine ⟨k, e, ⟨hlt, hge, by omega, hlower.imp_right fun hnormal => ?_⟩, hk.rounds hlower⟩
    have : ((leadingWeight : Nat) : ℚ) < (k + 1 : Nat) := by
      push_cast
      rw [cast_leadingWeight]
      linarith
    exact Nat.le_of_lt_succ (by exact_mod_cast this)
  · exact ⟨leadingWeight, e + 1, ⟨by decide, by omega, by omega, .inr le_rfl⟩, hk.rounds_carry hupper hge⟩

end PivotedLU.Binary64
