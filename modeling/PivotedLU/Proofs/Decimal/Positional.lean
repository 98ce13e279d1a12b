import PivotedLU.Decimal.Layout
import PivotedLU.Proofs.Bits
import PivotedLU.Proofs.Decimal.Shortest
import PivotedLU.Proofs.Numeral

/-!
# Positional texts read back

A finite number written without an exponent is read back as the same number, signs of zeros included.
-/

namespace PivotedLU

namespace Numeral

/-- A text of digits with at most one point, which does not stand first; what stands before and after
the point. -/
inductive Plain : List Char → List Char → List Char → Prop
  | whole {w} (hne : w ≠ []) (hw : ∀ c ∈ w, c.isDigit = true) : Plain w w []
  | point {w f} (hne : w ≠ []) (hw : ∀ c ∈ w, c.isDigit = true) (hf : ∀ c ∈ f, c.isDigit = true) :
      Plain (w ++ '.' :: f) w f

variable {text w f : List Char}

theorem Plain.mem (h : Plain text w f) {c : Char} (hc : c ∈ text) : c.isDigit = true ∨ c = '.' := by
  cases h with
  | whole _ hw => exact .inl (hw c hc)
  | point _ hw hf =>
      rcases List.mem_append.mp hc with hc | hc
      · exact .inl (hw c hc)
      · rcases List.mem_cons.mp hc with hc | hc
        · exact .inr hc
        · exact .inl (hf c hc)

theorem Plain.exists_cons (h : Plain text w f) : ∃ c rest, text = c :: rest ∧ c.isDigit = true := by
  cases h with
  | whole hne hw =>
      obtain ⟨c, rest, rfl⟩ := List.exists_cons_of_ne_nil hne
      exact ⟨c, rest, rfl, hw c List.mem_cons_self⟩
  | point hne hw _ =>
      obtain ⟨c, rest, rfl⟩ := List.exists_cons_of_ne_nil hne
      exact ⟨c, rest ++ '.' :: f, rfl, hw c List.mem_cons_self⟩

/-! ## Reading -/

theorem isDigit_ne {c d : Char} (h : c.isDigit = true) (hd : d.isDigit = false) : c ≠ d := by
  rintro rfl
  rw [h] at hd
  cases hd

theorem digit?_of_isDigit {c : Char} (h : c.isDigit = true) : digit? 10 c = some (c.toNat - 48) := by
  have hle : c.toNat ≤ 57 := (Char.isDigit_iff_toNat.mp h).2
  rw [digit?, digitValue, if_pos h, Option.filter_some, if_pos (decide_eq_true (by omega))]

theorem mantissa_digits {ds : List Char} (hds : ∀ c ∈ ds, c.isDigit = true) (m : Mantissa)
    (rest : List Char) : mantissa 10 m (ds ++ rest) =
      mantissa 10 ⟨Nat.ofDigitChars 10 ds m.coefficient,
        if m.point then m.places + ds.length else m.places, m.point, m.digits || !ds.isEmpty⟩ rest := by
  induction ds generalizing m with
  | nil => simp
  | cons c ds ih =>
      have hc := hds c List.mem_cons_self
      have hdot : ¬ (c = '.' ∧ m.point = false) := fun h => isDigit_ne hc rfl h.1
      rw [List.cons_append, mantissa, if_neg (isDigit_ne hc rfl), if_neg hdot, digit?_of_isDigit hc]
      dsimp only
      rw [ih fun c hc => hds c (List.mem_cons_of_mem _ hc), Nat.ofDigitChars_cons]
      cases m.point <;> simp [Nat.mul_comm, Nat.add_assoc, Nat.add_comm 1]

theorem mantissa_plain (h : Plain text w f) : ∃ point, mantissa 10 ⟨0, 0, false, false⟩ text =
    (⟨Nat.ofDigitChars 10 (w ++ f) 0, f.length, point, true⟩, []) := by
  cases h with
  | whole hne hw =>
      have hwhole := mantissa_digits hw ⟨0, 0, false, false⟩ []
      rw [List.isEmpty_eq_false_iff.mpr hne, List.append_nil] at hwhole
      exact ⟨false, by rw [hwhole, List.append_nil]; rfl⟩
  | point hne hw hf =>
      have hfraction := mantissa_digits hf ⟨Nat.ofDigitChars 10 w 0, 0, true, true⟩ []
      rw [List.append_nil] at hfraction
      refine ⟨true, ?_⟩
      rw [mantissa_digits hw, List.isEmpty_eq_false_iff.mpr hne, mantissa, if_neg (by decide),
        if_pos ⟨rfl, rfl⟩]
      refine hfraction.trans ?_
      rw [Nat.ofDigitChars_append, if_pos rfl, Nat.zero_add]
      rfl

theorem isDigit_or_point_ne {c d : Char} (h : c.isDigit = true ∨ c = '.') (hd : d.isDigit = false)
    (hpoint : d ≠ '.') : c ≠ d := by
  rintro rfl
  rcases h with h | h
  · exact isDigit_ne h hd rfl
  · exact hpoint h

theorem magnitude?_plain (h : Plain text w f) (negative : Bool) : magnitude? negative text =
    some (.decimal negative ⟨Nat.ofDigitChars 10 (w ++ f) 0, -f.length⟩) := by
  obtain ⟨point, hmantissa⟩ := mantissa_plain h
  unfold magnitude?
  split
  next mark rest =>
    have hmark := h.mem (List.mem_cons_of_mem _ List.mem_cons_self)
    have hne : ¬ (mark = 'x' ∨ mark = 'X') := by
      rintro (rfl | rfl)
      · exact isDigit_or_point_ne hmark rfl (by decide) rfl
      · exact isDigit_or_point_ne hmark rfl (by decide) rfl
    simp only [if_neg hne, hmantissa, if_true]
  next => simp only [hmantissa, if_true]

theorem separates_of_not_mem {isDigit : Char → Bool} {s : List Char} (h : '_' ∉ s) {before : Before}
    (hbefore : before ≠ .underscore) : separates isDigit before s = true := by
  induction s generalizing before with
  | nil => exact bne_iff_ne.mpr hbefore
  | cons c s ih =>
      rw [List.mem_cons, not_or] at h
      rw [separates, if_neg (Ne.symm h.1), ih h.2 (by decide), ih h.2 (by decide), Bool.and_true,
        bne_iff_ne.mpr hbefore, ite_self]

theorem sign_plain (h : Plain text w f) (negative : Bool) :
    sign (if negative then '-' :: text else text) = (negative, text) := by
  cases negative with
  | true => rfl
  | false =>
      obtain ⟨c, rest, rfl, hc⟩ := h.exists_cons
      exact sign_of_ne (isDigit_ne hc rfl) (isDigit_ne hc rfl) rest

theorem underscoresOk_plain (h : Plain text w f) (negative : Bool) :
    underscoresOk (if negative then '-' :: text else text) = true := by
  have hseparates : ∀ isDigit, separates isDigit .start text = true := fun _ =>
    separates_of_not_mem (fun hmem => isDigit_or_point_ne (h.mem hmem) rfl (by decide) rfl) (by decide)
  unfold underscoresOk
  rw [sign_plain h]
  dsimp only
  split
  next mark rest =>
    have hmark : ∀ d : Char, d.isDigit = false → d ≠ '.' → mark ≠ d := fun _ hd hpoint =>
      isDigit_or_point_ne (h.mem (List.mem_cons_of_mem _ List.mem_cons_self)) hd hpoint
    rw [if_neg, if_neg]
    · exact hseparates _
    · rintro (rfl | rfl | rfl | rfl)
      all_goals exact hmark _ rfl (by decide) rfl
    · rintro (rfl | rfl)
      all_goals exact hmark _ rfl (by decide) rfl
  next => exact hseparates _

theorem toLower_of_isDigit_or_point {c : Char} (h : c.isDigit = true ∨ c = '.') : c.toLower = c := by
  rcases h with h | rfl
  · refine dif_neg fun hc => ?_
    have hle : c.toNat ≤ 57 := (Char.isDigit_iff_toNat.mp h).2
    have hA : 'A'.val.toNat = 65 := rfl
    simp only [ge_iff_le, UInt32.le_iff_toNat_le] at hc
    simp only [Char.toNat] at hle
    omega
  · rfl

theorem read?_plain (h : Plain text w f) (negative : Bool) :
    read? (if negative then '-' :: text else text) =
      some (.decimal negative ⟨Nat.ofDigitChars 10 (w ++ f) 0, -f.length⟩) := by
  have hlower : (if negative then '-' :: text else text).map Char.toLower =
      if negative then '-' :: text else text := by
    have htext : text.map Char.toLower = text := by
      rw [List.map_congr_left fun c hc => toLower_of_isDigit_or_point (h.mem hc), List.map_id']
    cases negative with
    | true => simpa using htext
    | false => exact htext
  have hne : ∀ c s, c.isDigit = false → text ≠ c :: s := by
    rintro c s hc rfl
    obtain ⟨_, _, heq, hdigit⟩ := h.exists_cons
    exact isDigit_ne hdigit hc (List.cons.inj heq).1.symm
  have hinf : ¬ (text = "inf".toList ∨ text = "infinity".toList) := by
    rintro (htext | htext)
    · exact hne 'i' _ rfl htext
    · exact hne 'i' _ rfl htext
  have hnan : (if negative then '-' :: text else text) ≠ "nan".toList := by
    cases negative with
    | true => exact fun heq => absurd (List.cons.inj heq).1 (by decide)
    | false => exact hne 'n' _ rfl
  unfold read?
  dsimp only
  rw [hlower, sign_plain h]
  dsimp only
  rw [if_neg hinf, if_neg hnan, if_pos (underscoresOk_plain h negative), magnitude?_plain h]

end Numeral

/-! ## Writing -/

namespace Decimal

theorem isDigit_toDigits {n : Nat} {c : Char} (h : c ∈ Nat.toDigits 10 n) : c.isDigit = true :=
  Nat.isDigit_of_mem_toDigits (by decide) (by decide) h

theorem isDigit_replicate {n : Nat} {c : Char} (h : c ∈ List.replicate n '0') : c.isDigit = true := by
  rw [List.eq_of_mem_replicate h]
  rfl

theorem value_eq_of_digits {d : Decimal} {digits : List Char} {places : Nat}
    (hdigits : Nat.ofDigitChars 10 digits 0 = d.coefficient) (hplaces : (places : Int) = -d.exponent) :
    value ⟨Nat.ofDigitChars 10 digits 0, -places⟩ = d.value := by
  rw [hdigits, hplaces, neg_neg]

theorem positional_plain (d : Decimal) : ∃ w f, Numeral.Plain d.positional w f ∧
    value ⟨Nat.ofDigitChars 10 (w ++ f) 0, -f.length⟩ = d.value := by
  have hdigits : ∀ c ∈ Nat.toDigits 10 d.coefficient, c.isDigit = true := fun _ => isDigit_toDigits
  unfold positional
  dsimp only
  split
  next hexp =>
    -- Zeros fill the places up to the point, so that the coefficient read is another one.
    refine ⟨_, [], .whole ?_ ?_, ?_⟩
    · exact List.append_ne_nil_of_left_ne_nil Nat.toDigits_ne_nil _
    · intro c hc
      exact (List.mem_append.mp hc).elim (hdigits c) isDigit_replicate
    · rw [List.append_nil, Nat.ofDigitChars_append, Nat.ofDigitChars_ten_toDigits,
        Nat.ofDigitChars_replicate_zero]
      unfold value
      have he : (10 : ℚ) ^ d.exponent = 10 ^ d.exponent.toNat := by
        rw [← zpow_natCast, Int.toNat_of_nonneg hexp]
      rw [he]
      push_cast
      simp [mul_comm]
  next hexp =>
    split
    next hlt =>
      refine ⟨_, _, .point ?_ ?_ ?_, value_eq_of_digits ?_ ?_⟩
      · exact List.ne_nil_of_length_pos (by rw [List.length_take]; omega)
      · exact fun c hc => hdigits c (List.mem_of_mem_take hc)
      · exact fun c hc => hdigits c (List.mem_of_mem_drop hc)
      · rw [List.take_append_drop, Nat.ofDigitChars_ten_toDigits]
      · rw [List.length_drop]
        omega
    next hle =>
      refine ⟨['0'], _, Numeral.Plain.point (w := ['0']) ?_ ?_ ?_, value_eq_of_digits ?_ ?_⟩
      · exact List.cons_ne_nil _ _
      · intro c hc
        rw [List.mem_singleton.mp hc]
        rfl
      · intro c hc
        exact (List.mem_append.mp hc).elim isDigit_replicate (hdigits c)
      · rw [List.singleton_append, Nat.ofDigitChars_cons, Nat.ofDigitChars_append,
          Nat.ofDigitChars_replicate_zero]
        exact Nat.ofDigitChars_ten_toDigits
      · rw [List.length_append, List.length_replicate]
        omega

end Decimal

/-! ## Round trip -/

theorem Numeral.toFloat?_decimal (negative : Bool) (d : Decimal) :
    toFloat? (.decimal negative d) = d.toFloat? negative := by
  unfold toFloat?
  dsimp only
  split
  next h =>
    have hbits : ∀ den, Binary64.nearestBits 0 den = 0 := fun _ => if_pos rfl
    unfold Decimal.toFloat? Binary64.nearest?
    rw [h, Binary64.scale, Nat.zero_mul]
    by_cases hexp : 0 ≤ d.exponent
    · rw [if_pos hexp]
    · rw [if_neg hexp]
      dsimp only
      rw [hbits, hbits]
  next => rfl

namespace Decimal.Layout

variable {x : Float}

theorem toList_render (h : x.isFinite = true) : ∃ negative m q, Binary64.Canonical m q ∧
    x = Binary64.assemble negative m q ∧ (plain.render x).toList =
      if negative then '-' :: (shortest m q).positional else (shortest m q).positional := by
  obtain ⟨negative, m, q, hx, hcanon, hassemble⟩ := Binary64.exists_of_isFinite h
  refine ⟨negative, m, q, hcanon, hassemble, ?_⟩
  unfold render
  rw [hx]
  exact String.toList_ofList

theorem float_render (h : x.isFinite = true) : Numeral.float (plain.render x).toList = .ok x := by
  obtain ⟨negative, m, q, hcanon, hassemble, htext⟩ := toList_render h
  obtain ⟨w, f, hplain, hvalue⟩ := positional_plain (shortest m q)
  unfold Numeral.float
  rw [htext, Numeral.read?_plain hplain]
  dsimp only
  rw [Numeral.toFloat?_decimal, toFloat?_of_value hcanon hvalue, ← hassemble]

theorem mem_render (h : x.isFinite = true) {c : Char} (hc : c ∈ (plain.render x).toList) :
    c.isDigit = true ∨ c = '.' ∨ c = '-' := by
  obtain ⟨negative, m, q, -, -, htext⟩ := toList_render h
  obtain ⟨w, f, hplain, -⟩ := positional_plain (shortest m q)
  rw [htext] at hc
  cases negative with
  | true =>
      rcases List.mem_cons.mp hc with hc | hc
      · exact .inr (.inr hc)
      · exact (hplain.mem hc).imp_right .inl
  | false => exact (hplain.mem hc).imp_right .inl

end Decimal.Layout

end PivotedLU
