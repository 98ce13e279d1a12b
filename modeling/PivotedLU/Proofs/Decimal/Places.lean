import PivotedLU.Decimal.Places
import PivotedLU.Proofs.Bits
import PivotedLU.Proofs.Decimal.Neighbours
import PivotedLU.Proofs.Decimal.Shortest

/-!
# Rounding to decimal places

A number is rounded to decimal places in two steps: to the nearest decimal, and from there to the
nearest number. The second step moves away from the decimal no further than the first one came to
it, so the decimal nearest to the result is the same, and rounding again changes nothing.
-/

namespace PivotedLU

/-! ## Exact values -/

namespace Binary64

variable {m : Nat} {q : Int} {negative : Bool} {x : Float}

def signed (negative : Bool) (r : ℚ) : ℚ :=
  if negative then -r else r

/-- The rational number that a finite number stands for. -/
def value (x : Float) : ℚ :=
  match ofFloat x with
  | .finite negative m q => signed negative (m * 2 ^ q)
  | _ => 0

theorem abs_signed (negative : Bool) (r : ℚ) : |signed negative r| = |r| := by
  cases negative
  · rfl
  · exact abs_neg r

theorem signed_sub (negative : Bool) (r t : ℚ) :
    signed negative r - signed negative t = signed negative (r - t) := by
  cases negative
  · rfl
  · exact (neg_sub_neg r t).trans (neg_sub r t).symm

theorem value_of_ofFloat (h : ofFloat x = .finite negative m q) :
    value x = signed negative (m * 2 ^ q) := by
  rw [value, h]

theorem Rounds.nearest_value {r : ℚ} {y : Float} (h : Rounds m q r) (hcanon : Canonical m q) (hr : 0 ≤ r)
    (hy : y.isFinite = true) (negative : Bool) :
    |signed negative r - signed negative (m * 2 ^ q)| ≤ |signed negative r - value y| := by
  obtain ⟨negative', m', q', hfinite, hcanon', -⟩ := exists_of_isFinite hy
  have habs : |value y| = m' * 2 ^ q' := by
    rw [value_of_ofFloat hfinite, abs_signed, abs_of_nonneg (by positivity)]
  calc |signed negative r - signed negative (m * 2 ^ q)| = |r - m * 2 ^ q| := by
        rw [signed_sub, abs_signed]
    _ ≤ |r - m' * 2 ^ q'| := h.nearest hcanon hcanon'
    _ = |(|signed negative r| - |value y|)| := by rw [abs_signed, abs_of_nonneg hr, habs]
    _ ≤ |signed negative r - value y| := abs_abs_sub_abs_le _ _

end Binary64

namespace Decimal

open Binary64 (scale scale_div scale_snd_pos roundDiv ofFloat assemble signed Canonical Rounds NearestInt)

variable {m m' : Nat} {q q' : Int} {negative : Bool} {x : Float}

/-! ## The nearest decimal -/

theorem value_nonneg (d : Decimal) : 0 ≤ d.value := by
  unfold value
  positivity

theorem toPlaces_quotient (m : Nat) (q : Int) (places : Nat) :
    (((scale m 2 q).1 * Nat.pow 10 places : Nat) : ℚ) / (scale m 2 q).2 = m * 2 ^ q * 10 ^ places := by
  have hscale : ((scale m 2 q).1 : ℚ) / (scale m 2 q).2 = m * 2 ^ q := scale_div m Nat.two_pos q
  rw [← hscale, Nat.pow_eq]
  push_cast
  ring

theorem nearestInt_toPlaces (m : Nat) (q : Int) (places : Nat) :
    NearestInt (m * 2 ^ q * 10 ^ places) (toPlaces m q places).coefficient := by
  rw [← toPlaces_quotient]
  exact Binary64.nearestInt_roundDiv _ (scale_snd_pos m Nat.two_pos q)

theorem toPlaces_eq {places c : Nat} (h : NearestInt (m * 2 ^ q * 10 ^ places) c) :
    toPlaces m q places = ⟨c, -places⟩ := by
  rw [← toPlaces_quotient] at h
  unfold toPlaces
  dsimp only
  rw [h.roundDiv_eq (scale_snd_pos m Nat.two_pos q)]

theorem value_toPlaces (m : Nat) (q : Int) (places : Nat) :
    (toPlaces m q places).value = (toPlaces m q places).coefficient / 10 ^ places := by
  rw [value, show (toPlaces m q places).exponent = -places from rfl, zpow_neg, zpow_natCast, div_eq_mul_inv]

/-- A number with no more places than that stands for itself. -/
theorem value_toPlaces_exact {places : Nat} (h : 0 ≤ q + places) :
    (toPlaces m q places).value = m * 2 ^ q := by
  obtain ⟨k, hk⟩ := Int.eq_ofNat_of_zero_le h
  obtain rfl : q = k - places := by omega
  have hscaled : (m : ℚ) * 2 ^ ((k : Int) - places) * 10 ^ places = (m * 2 ^ k * 5 ^ places : Nat) := by
    have hten : (10 : ℚ) ^ places = 2 ^ places * 5 ^ places := by
      rw [← mul_pow]
      norm_num
    rw [zpow_sub₀ two_ne_zero, zpow_natCast, zpow_natCast, hten]
    push_cast
    field_simp
  have hplaces : toPlaces m (k - places) places = ⟨m * 2 ^ k * 5 ^ places, -places⟩ := by
    refine toPlaces_eq ?_
    rw [hscaled]
    refine ⟨?_, ?_⟩ <;> norm_num
  rw [value_toPlaces, hplaces, ← hscaled]
  field_simp

theorem exists_rounds_toPlaces (hcanon : Canonical m q) (places : Nat) :
    ∃ m' q', Canonical m' q' ∧ Rounds m' q' (toPlaces m q places).value := by
  rcases le_or_gt 0 (q + places) with hexact | hsmall
  · exact ⟨m, q, hcanon, value_toPlaces_exact hexact ▸ Binary64.rounds_self m q⟩
  · have hten : (1 : ℚ) ≤ 10 ^ places := one_le_pow₀ (by norm_num)
    have hnear := (nearestInt_toPlaces m q places).bounds.1
    have hm : (m : ℚ) * 2 ^ q ≤ 2 ^ 53 := by
      have hpow : (2 : ℚ) ^ q ≤ 1 := zpow_le_one_of_nonpos₀ one_le_two (by omega)
      have hmantissa : (m : ℚ) ≤ 2 ^ 53 := by exact_mod_cast hcanon.lt.le
      nlinarith [Binary64.two_zpow_pos q]
    have hvalue : (toPlaces m q places).value < 2 ^ (54 : Int) := by
      rw [value_toPlaces, div_lt_iff₀ (by positivity)]
      nlinarith
    refine Binary64.exists_rounds (value_nonneg _) (lt_of_lt_of_le hvalue ?_)
    exact zpow_le_zpow_right₀ one_le_two (by decide)

/-- Rounding again finds the same decimal. -/
theorem toPlaces_of_rounds {places : Nat} (hcanon : Canonical m q) (hcanon' : Canonical m' q')
    (h : Rounds m' q' (toPlaces m q places).value) : toPlaces m' q' places = toPlaces m q places := by
  have hnear := h.nearest hcanon' hcanon
  have hten : (0 : ℚ) < 10 ^ places := by positivity
  have hscaled : ∀ r : ℚ, |r * 10 ^ places - (toPlaces m q places).coefficient| =
      |(toPlaces m q places).value - r| * 10 ^ places := by
    intro r
    rw [value_toPlaces, abs_sub_comm, ← abs_of_pos hten, ← abs_mul, abs_of_pos hten, sub_mul,
      div_mul_cancel₀ _ hten.ne']
  refine toPlaces_eq ((nearestInt_toPlaces m q places).of_le ?_)
  rw [Int.cast_natCast, hscaled, hscaled]
  exact mul_le_mul_of_nonneg_right hnear hten.le

/-! ## Rounded numbers -/

theorem roundPlaces_eq (hx : ofFloat x = .finite negative m q) (places : Nat) : ∃ m' q', Canonical m' q' ∧
    Rounds m' q' (toPlaces m q places).value ∧ roundPlaces places x = assemble negative m' q' := by
  obtain ⟨negative', m', q', hx', hcanon, hassemble⟩ :=
    Binary64.exists_of_isFinite (Binary64.isFinite_of_ofFloat hx)
  cases hx.symm.trans hx'
  unfold roundPlaces
  split
  next hall =>
    have hge := hcanon.exponent_ge
    refine ⟨m, q, hcanon, ?_, hassemble⟩
    rw [value_toPlaces_exact (by omega)]
    exact Binary64.rounds_self m q
  next =>
    obtain ⟨m', q', hcanon', h⟩ := exists_rounds_toPlaces hcanon places
    rw [hx]
    dsimp only
    rw [toFloat?_of_rounds hcanon' h]
    exact ⟨m', q', hcanon', h, rfl⟩

theorem isFinite_roundPlaces (hx : x.isFinite = true) (places : Nat) :
    (roundPlaces places x).isFinite = true := by
  obtain ⟨negative, m, q, hfinite, -, -⟩ := Binary64.exists_of_isFinite hx
  obtain ⟨m', q', hcanon, -, heq⟩ := roundPlaces_eq hfinite places
  rw [heq]
  exact Binary64.isFinite_of_ofFloat (Binary64.ofFloat_assemble hcanon negative)

theorem roundPlaces_zero (places : Nat) : roundPlaces places 0 = 0 := by
  have hzero : ofFloat 0 = .finite false 0 (-1074) := rfl
  obtain ⟨m', q', hcanon, h, heq⟩ := roundPlaces_eq hzero places
  have hvalue : (toPlaces 0 (-1074) places).value = 0 := by
    rw [toPlaces_eq (c := 0) ⟨by simp, by simp⟩, value, Nat.cast_zero, zero_mul]
  rw [hvalue] at h
  obtain ⟨rfl, rfl⟩ := h.eq_zero hcanon
  rw [heq]
  rfl

theorem roundPlaces_roundPlaces (hx : x.isFinite = true) (places : Nat) :
    roundPlaces places (roundPlaces places x) = roundPlaces places x := by
  obtain ⟨negative, m, q, hfinite, hcanon, -⟩ := Binary64.exists_of_isFinite hx
  obtain ⟨m', q', hcanon', h, heq⟩ := roundPlaces_eq hfinite places
  rw [heq]
  by_cases hall : 1074 ≤ places
  · rw [roundPlaces, if_pos hall]
  · rw [roundPlaces, if_neg hall, Binary64.ofFloat_assemble hcanon' negative]
    dsimp only
    rw [toPlaces_of_rounds hcanon hcanon' h, toFloat?_of_rounds hcanon' h]
    rfl

/-- The decimal nearest to a number, and the number nearest to that. -/
theorem exists_nearest_roundPlaces (hx : x.isFinite = true) (places : Nat) :
    ∃ c : Int, NearestInt (Binary64.value x * 10 ^ places) c ∧ ∀ y : Float, y.isFinite = true →
      |c / 10 ^ places - Binary64.value (roundPlaces places x)| ≤ |c / 10 ^ places - Binary64.value y| := by
  obtain ⟨negative, m, q, hfinite, hcanon, -⟩ := Binary64.exists_of_isFinite hx
  obtain ⟨m', q', hcanon', h, heq⟩ := roundPlaces_eq hfinite places
  have hnearest : ∃ c : Int, NearestInt (Binary64.value x * 10 ^ places) c ∧
      (c : ℚ) / 10 ^ places = signed negative (toPlaces m q places).value := by
    have hplaces := nearestInt_toPlaces m q places
    rw [Binary64.value_of_ofFloat hfinite, value_toPlaces]
    cases negative with
    | false => exact ⟨_, hplaces, rfl⟩
    | true =>
        have hneg := hplaces.neg
        rw [← neg_mul] at hneg
        refine ⟨_, hneg, ?_⟩
        push_cast
        exact neg_div _ _
  obtain ⟨c, hc, hvalue⟩ := hnearest
  refine ⟨c, hc, fun y hy => ?_⟩
  rw [hvalue, heq, Binary64.value_of_ofFloat (Binary64.ofFloat_assemble hcanon' negative)]
  exact h.nearest_value hcanon' (value_nonneg _) hy negative

end Decimal

end PivotedLU
