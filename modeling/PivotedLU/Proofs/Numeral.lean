import PivotedLU.Numeral
import PivotedLU.Text.Blank

/-!
# Reading numerals
-/

namespace PivotedLU

theorem Text.toNat_of_isBlank {c : Char} (h : isBlank c = true) : c.toNat < 33 ∨ 132 < c.toNat := by
  simp only [isBlank, Bool.or_eq_true, Bool.and_eq_true, decide_eq_true_eq, beq_iff_eq] at h
  omega

namespace Numeral

theorem sign_of_ne {c : Char} (hminus : c ≠ '-') (hplus : c ≠ '+') (rest : List Char) :
    sign (c :: rest) = (false, c :: rest) := by
  unfold sign
  split
  next h => exact absurd (List.cons.inj h).1 hminus
  next h => exact absurd (List.cons.inj h).1 hplus
  next => rfl

theorem digit?_unprintable {c : Char} (h : c.toNat < 33 ∨ 132 < c.toNat) (base : Nat) :
    digit? base c = none := by
  have hbounds : ∀ lo hi : Char, 33 ≤ lo.toNat → hi.toNat ≤ 132 → ¬ (lo ≤ c ∧ c ≤ hi) := by
    intro lo hi hlo hhi hc
    simp only [Char.le_def, UInt32.le_iff_toNat_le] at hc
    simp only [Char.toNat] at h hlo hhi
    omega
  have hdigit : ¬ c.isDigit = true := by
    rw [Char.isDigit, Bool.and_eq_true, decide_eq_true_eq, decide_eq_true_eq]
    exact hbounds '0' '9' (by decide) (by decide)
  rw [digit?, digitValue, if_neg hdigit, if_neg (hbounds 'a' 'z' (by decide) (by decide)),
    if_neg (hbounds 'A' 'Z' (by decide) (by decide)), Option.filter_none]

/-- No number begins with a character that stands below or above all that numbers are made of. -/
theorem read?_unprintable {c : Char} (h : c.toNat < 33 ∨ 132 < c.toNat) (rest : List Char) :
    read? (c :: rest) = none := by
  have hne : ∀ d : Char, 33 ≤ d.toNat → d.toNat ≤ 132 → c ≠ d := by
    rintro d hlow hhigh rfl
    omega
  have hlower : c.toLower = c := by
    refine dif_neg fun hc => ?_
    simp only [ge_iff_le, UInt32.le_iff_toNat_le] at hc
    have hA : 'A'.val.toNat = 65 := rfl
    have hZ : 'Z'.val.toNat = 90 := rfl
    simp only [Char.toNat] at h
    omega
  have hsign : ∀ s, sign (c :: s) = (false, c :: s) :=
    sign_of_ne (hne '-' (by decide) (by decide)) (hne '+' (by decide) (by decide))
  have hmantissa : mantissa 10 ⟨0, 0, false, false⟩ (c :: rest) = (⟨0, 0, false, false⟩, c :: rest) := by
    rw [mantissa, if_neg (hne '_' (by decide) (by decide)),
      if_neg fun hdot => hne '.' (by decide) (by decide) hdot.1, digit?_unprintable h]
  have hmagnitude : magnitude? false (c :: rest) = none := by
    unfold magnitude?
    split
    next heq => exact absurd (List.cons.inj heq).1 (hne '0' (by decide) (by decide))
    next => simp [hmantissa]
  have hinf : ∀ s : List Char, c :: s ≠ "inf".toList ∧ c :: s ≠ "infinity".toList ∧ c :: s ≠ "nan".toList := by
    intro s
    refine ⟨fun hs => ?_, fun hs => ?_, fun hs => ?_⟩
    · exact hne 'i' (by decide) (by decide) (List.cons.inj hs).1
    · exact hne 'i' (by decide) (by decide) (List.cons.inj hs).1
    · exact hne 'n' (by decide) (by decide) (List.cons.inj hs).1
  obtain ⟨hi, hinf, hn⟩ := hinf (rest.map Char.toLower)
  simp only [read?, List.map_cons, hlower, hsign, hmagnitude, ite_self, hi, hinf, hn, or_self, if_false]

theorem float_blank {token : List Char} (hne : token ≠ [])
    (hblank : ∀ c ∈ token, Text.isBlank c = true) : (float token).toOption = none := by
  cases token with
  | nil => exact absurd rfl hne
  | cons c rest =>
      have hread := read?_unprintable (Text.toNat_of_isBlank (hblank c List.mem_cons_self)) rest
      simp only [float, hread, Except.toOption]

end Numeral

end PivotedLU
