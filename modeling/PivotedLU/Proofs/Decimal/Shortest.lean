import Mathlib.Order.Compare
import PivotedLU.Decimal.Shortest
import PivotedLU.Proofs.Decimal.Nearest

/-!
# Shortest decimals read back

The decimal that is found for a number lies between the middles around it, whichever grid it was
found on; on the finest one because seventeen digits tell all numbers apart. So it is read back as
the number.
-/

namespace PivotedLU.Decimal

open Binary64 (scale scale_div scale_snd_pos leadingWeight Canonical Rounds below above roundDiv)

variable {m : Nat} {q p : Int} {c : Nat}

/-- The rational number that a decimal stands for. -/
def value (d : Decimal) : ℚ :=
  d.coefficient * 10 ^ d.exponent

theorem ten_zpow_pos (e : Int) : (0 : ℚ) < 10 ^ e :=
  zpow_pos (by norm_num) e

/-! ## Exact comparison -/

theorem compareBinary_eq (c : Nat) (p : Int) (b : Nat) (e : Int) :
    compareBinary c p b e = compare ((c : ℚ) * 10 ^ p) (b * 2 ^ e) := by
  have hc : ((scale c 10 p).1 : ℚ) / (scale c 10 p).2 = c * 10 ^ p := scale_div c (by norm_num) p
  have hb : ((scale b 2 e).1 : ℚ) / (scale b 2 e).2 = b * 2 ^ e := scale_div b (by norm_num) e
  have hc' : (0 : ℚ) < (scale c 10 p).2 := by exact_mod_cast scale_snd_pos c (by norm_num) p
  have hb' : (0 : ℚ) < (scale b 2 e).2 := by exact_mod_cast scale_snd_pos b (by norm_num) e
  rw [← hc, ← hb]
  unfold compareBinary
  dsimp only
  generalize (scale c 10 p).1 = c₁ at *
  generalize (scale c 10 p).2 = c₂ at *
  generalize (scale b 2 e).1 = b₁ at *
  generalize (scale b 2 e).2 = b₂ at *
  rcases lt_trichotomy (c₁ * b₂) (b₁ * c₂) with h | h | h
  · rw [Nat.compare_eq_lt.mpr h, eq_comm, compare_lt_iff_lt, div_lt_div_iff₀ hc' hb']
    exact_mod_cast h
  · rw [Nat.compare_eq_eq.mpr h, eq_comm, compare_eq_iff_eq, div_eq_div_iff hc'.ne' hb'.ne']
    exact_mod_cast h
  · rw [Nat.compare_eq_gt.mpr h, eq_comm, compare_gt_iff_gt, div_lt_div_iff₀ hb' hc']
    exact_mod_cast h

/-! ## Candidates -/

theorem le_of_compare {r b : ℚ} {even : Bool} (h : (match compare r b with
    | .lt => false
    | .eq => even
    | .gt => true) = true) : b ≤ r ∧ (r = b → even = true) := by
  split at h
  next => cases h
  next hr => exact ⟨(compare_eq_iff_eq.mp hr).ge, fun _ => h⟩
  next hr =>
    have hlt := compare_gt_iff_gt.mp hr
    exact ⟨hlt.le, fun heq => absurd heq hlt.ne'⟩

theorem ge_of_compare {r b : ℚ} {even : Bool} (h : (match compare r b with
    | .lt => true
    | .eq => even
    | .gt => false) = true) : r ≤ b ∧ (r = b → even = true) := by
  split at h
  next hr =>
    have hlt := compare_lt_iff_lt.mp hr
    exact ⟨hlt.le, fun heq => absurd heq hlt.ne⟩
  next hr => exact ⟨(compare_eq_iff_eq.mp hr).le, fun _ => h⟩
  next => cases h

theorem rounds_of_roundsTo (hm : 0 < m) (h : roundsTo m q c p = true) : Rounds m q (c * 10 ^ p) := by
  have hquarter : (2 : ℚ) ^ (q - 2) = 2 ^ q / 4 := by
    rw [zpow_sub₀ two_ne_zero]
    norm_num
  have hlow : ((if m = leadingWeight ∧ q ≠ -1074 then 4 * m - 1 else 4 * m - 2 : Nat) : ℚ) * 2 ^ (q - 2) =
      below m q := by
    unfold below
    split
    · rw [Nat.cast_sub (by omega), hquarter]
      push_cast
      ring
    · rw [Nat.cast_sub (by omega), hquarter]
      push_cast
      ring
  have hhigh : ((4 * m + 2 : Nat) : ℚ) * 2 ^ (q - 2) = above m q := by
    rw [above, hquarter]
    push_cast
    ring
  unfold roundsTo at h
  simp only [compareBinary_eq, hlow, hhigh, Bool.and_eq_true] at h
  obtain ⟨hle, hlow_tie⟩ := le_of_compare h.1
  obtain ⟨hge, hhigh_tie⟩ := ge_of_compare h.2
  refine ⟨hle, hge, ?_⟩
  rintro (htie | htie)
  · exact beq_iff_eq.mp (hlow_tie htie)
  · exact beq_iff_eq.mp (hhigh_tie htie)

theorem roundDiv_mem (num den : Nat) : roundDiv num den = num / den ∨ roundDiv num den = num / den + 1 := by
  unfold roundDiv
  dsimp only
  split
  · exact .inl rfl
  · split
    · exact .inr rfl
    · rcases Nat.mod_two_eq_zero_or_one (num / den) with h | h
      · exact .inl (by rw [h, Nat.add_zero])
      · exact .inr (by rw [h])

theorem roundsTo_of_candidate (h : candidate m q p = some c) : roundsTo m q c p = true := by
  unfold candidate at h
  dsimp only at h
  split at h
  next hfloor hceil =>
    cases h
    rcases roundDiv_mem (units m q p).1 (units m q p).2 with heq | heq
    · rw [heq, hfloor]
    · rw [heq, hceil]
  next hfloor _ =>
    cases h
    exact hfloor
  next _ hceil =>
    cases h
    exact hceil
  next => cases h

/-! ## The finest grid -/

theorem units_div (m : Nat) (q p : Int) :
    ((units m q p).1 : ℚ) / (units m q p).2 = m * 2 ^ q / 10 ^ p := by
  have hm : ((scale m 2 q).1 : ℚ) / (scale m 2 q).2 = m * 2 ^ q := scale_div m (by norm_num) q
  have hp : ((scale 1 10 p).1 : ℚ) / (scale 1 10 p).2 = 10 ^ p := Binary64.scale_one_div (by norm_num) p
  rw [← hm, ← hp, div_div_div_eq]
  unfold units
  push_cast
  rfl

theorem units_snd_pos (m : Nat) (q p : Int) : 0 < (units m q p).2 :=
  Nat.mul_pos (scale_snd_pos m Nat.two_pos q) (Binary64.scale_fst_pos Nat.one_pos (by norm_num) p)

/-- Half a step of a grid with seventeen digits is less than half of the gap on either side. -/
theorem rounds_finest (hcanon : Canonical m q) (hp : (10 : ℚ) ^ p * 10 ^ 16 ≤ m * 2 ^ q) :
    Rounds m q (roundDiv (units m q p).1 (units m q p).2 * 10 ^ p) := by
  have hstep := ten_zpow_pos p
  have hpow := Binary64.two_zpow_pos q
  obtain ⟨hlow, hhigh⟩ := Binary64.roundDiv_near (units m q p).1 (units_snd_pos m q p)
  rw [units_div, sub_le_iff_le_add, div_le_iff₀ hstep] at hlow
  rw [units_div, ← sub_le_iff_le_add, le_div_iff₀ hstep] at hhigh
  have hm : (m : ℚ) ≤ 2 ^ 53 := by exact_mod_cast hcanon.lt.le
  have hgap : (10 : ℚ) ^ p < 2 ^ q := by
    have : (m : ℚ) * 2 ^ q ≤ 2 ^ 53 * 2 ^ q := by gcongr
    linarith
  have hbelow : below m q < roundDiv (units m q p).1 (units m q p).2 * 10 ^ p := by
    unfold below
    split
    next hpower =>
      rw [hpower.1] at hp hlow ⊢
      push_cast [leadingWeight] at hp hlow ⊢
      linarith
    next => linarith
  have habove : (roundDiv (units m q p).1 (units m q p).2 * 10 ^ p : ℚ) < above m q := by
    unfold above
    linarith
  exact ⟨hbelow.le, habove.le, fun htie => (htie.elim hbelow.ne' habove.ne).elim⟩

/-! ## The first digit -/

/-- Powers of ten and of two compared by their `n`-th powers, `k / n` standing in for the logarithm
of two. -/
theorem ten_zpow_le_two_zpow_of {a b : Int} {n k : Nat} (hn : n ≠ 0) (hle : a * n ≤ k * b)
    (hpow : ((10 : ℚ) ^ k) ^ b ≤ (2 ^ n) ^ b) : (10 : ℚ) ^ a ≤ 2 ^ b := by
  rw [← pow_le_pow_iff_left₀ (ten_zpow_pos a).le (Binary64.two_zpow_pos b).le hn]
  calc ((10 : ℚ) ^ a) ^ n = 10 ^ (a * n) := by rw [zpow_mul, zpow_natCast]
    _ ≤ 10 ^ (k * b) := zpow_le_zpow_right₀ (by norm_num) hle
    _ = (10 ^ k) ^ b := by rw [zpow_mul, zpow_natCast]
    _ ≤ (2 ^ n) ^ b := hpow
    _ = (2 ^ b) ^ n := by rw [← zpow_natCast, ← zpow_natCast, ← zpow_mul, ← zpow_mul, mul_comm]

theorem ten_zpow_le_two_zpow {a b : Int} (hlow : -20000 ≤ b) (hhigh : b ≤ 20000)
    (h : 100000 * (a + 1) ≤ 30103 * b) : (10 : ℚ) ^ a ≤ 2 ^ b := by
  rcases le_total 0 b with hb | hb
  · refine ten_zpow_le_two_zpow_of (n := 196) (k := 59) (by norm_num) (by omega) ?_
    exact zpow_le_zpow_left₀ hb (by norm_num) (by norm_num)
  · refine ten_zpow_le_two_zpow_of (n := 93) (k := 28) (by norm_num) (by omega) ?_
    obtain ⟨n, rfl⟩ : ∃ n : Nat, b = -n := ⟨(-b).toNat, by omega⟩
    rw [zpow_neg, zpow_neg, zpow_natCast, zpow_natCast]
    exact inv_anti₀ (by positivity) (pow_le_pow_left₀ (by norm_num) (by norm_num) n)

theorem floorLog10_le (hcanon : Canonical m q) (hm : 0 < m) : (10 : ℚ) ^ floorLog10 m q ≤ m * 2 ^ q := by
  have hlog : m.log2 < 53 := (Nat.log2_lt hm.ne').mpr hcanon.lt
  have hge := hcanon.exponent_ge
  have hle := hcanon.exponent_le
  unfold floorLog10
  simp only [compareBinary_eq, Nat.cast_one, one_mul]
  split
  next h => exact compare_le_iff_le.mp (bne_iff_ne.mp h)
  split
  next =>
    calc (10 : ℚ) ^ ((((m.log2 : Int) + q) * 30103).fdiv 100000 - 1)
      _ ≤ 2 ^ ((m.log2 : Int) + q) := by
          refine ten_zpow_le_two_zpow (by omega) (by omega) ?_
          rw [Int.fdiv_eq_ediv_of_nonneg _ (by norm_num)]
          omega
      _ = 2 ^ m.log2 * 2 ^ q := by rw [zpow_add₀ two_ne_zero, zpow_natCast]
      _ ≤ m * 2 ^ q := by
          gcongr
          exact_mod_cast Nat.log2_self_le hm.ne'
  next h => exact compare_le_iff_le.mp fun heq => h (beq_iff_eq.mpr heq)

/-! ## The search -/

theorem rounds_search (hcanon : Canonical m q) (hm : 0 < m) (finer : Nat)
    (hp : (10 : ℚ) ^ (p - finer) * 10 ^ 16 ≤ m * 2 ^ q) : Rounds m q (search m q finer p).value := by
  induction finer generalizing p with
  | zero =>
      rw [Nat.cast_zero, sub_zero] at hp
      exact rounds_finest hcanon hp
  | succ finer ih =>
      rw [search]
      split
      next c hc => exact rounds_of_roundsTo hm (roundsTo_of_candidate hc)
      next =>
        refine ih ?_
        have hplace : p - 1 - (finer : Int) = p - (finer + 1 : Nat) := by
          push_cast
          ring
        rw [hplace]
        exact hp

theorem value_strip (c : Nat) (e : Int) : (strip c e).value = c * 10 ^ e := by
  fun_induction strip c e with
  | case1 c e h ih =>
      rw [ih, zpow_add_one₀ (by norm_num)]
      have hc : (c : ℚ) = (c / 10 : Nat) * 10 := by
        exact_mod_cast (Nat.div_mul_cancel (Nat.dvd_of_mod_eq_zero h.2)).symm
      rw [hc]
      ring
  | case2 c e h => rfl

theorem rounds_shortest (hcanon : Canonical m q) : Rounds m q (shortest m q).value := by
  rcases Nat.eq_zero_or_pos m with rfl | hm
  · rw [shortest, if_pos rfl, value, Nat.cast_zero, zero_mul]
    exact Binary64.rounds_zero q
  · rw [shortest, if_neg hm.ne']
    dsimp only
    rw [value_strip]
    refine rounds_search hcanon hm 16 ?_
    have hlog := floorLog10_le hcanon hm
    rw [zpow_sub₀ (by norm_num)]
    simpa using hlog

/-! ## Reading back -/

theorem toFloat?_of_rounds {d : Decimal} (hcanon : Canonical m q) (hd : Rounds m q d.value)
    (negative : Bool) : d.toFloat? negative = some (Binary64.assemble negative m q) := by
  have hscale : ((scale d.coefficient 10 d.exponent).1 : ℚ) / (scale d.coefficient 10 d.exponent).2 =
      d.value := scale_div d.coefficient (by norm_num) d.exponent
  rw [← hscale] at hd
  have hbits := Binary64.nearestBits_eq hd hcanon (scale_snd_pos d.coefficient (by norm_num) d.exponent)
  unfold toFloat? Binary64.nearest?
  dsimp only
  rw [hbits, if_pos hcanon.bits_lt, Binary64.assemble]

theorem toFloat?_of_value {d : Decimal} (hcanon : Canonical m q) (hd : d.value = (shortest m q).value)
    (negative : Bool) : d.toFloat? negative = some (Binary64.assemble negative m q) :=
  toFloat?_of_rounds hcanon (hd ▸ rounds_shortest hcanon) negative

end PivotedLU.Decimal
