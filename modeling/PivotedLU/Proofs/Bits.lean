import PivotedLU.Proofs.Decimal.Nearest
import PivotedLU.Proofs.Order

/-!
# The bits of numbers

A number is determined by its bits, and a finite one by sign, mantissa and exponent.
-/

namespace PivotedLU.Binary64

open Float.Model Float.Model.UnpackedFloat

variable {x : Float} {negative : Bool} {m : Nat} {q : Int}

/-! ## Unpacking loses nothing -/

theorem toBitVec_ofBitVec (v : BitVec 1) : (Sign.ofBitVec v).toBitVec = v := by
  revert v
  decide

section Pack

variable {b : BitVec Format.binary64.numBits} {e : BitVec Format.binary64.exponentBits}
  {f : BitVec Format.binary64.mantissaBitsWithoutImplicit}

theorem packComponents_of (he : unpackExponent b = e) (hf : unpackMantissa b = f) :
    packComponents Format.binary64 (Sign.ofBitVec (unpackSign b)) e f = b := by
  subst he hf
  rw [packComponents, toBitVec_ofBitVec]
  unfold unpackSign unpackExponent unpackMantissa BitVec.extractLsb
  ext i hi
  grind

theorem pack_subnormal (s : Sign) (hpos : 0 < f.toNat) :
    UnpackedFloat.pack Format.binary64 (.finite s f.toNat (-1074) hpos) =
      packComponents Format.binary64 s 0#_ f := by
  have hlog : ¬ f.toNat.log2 + 1 = Format.binary64.mantissaBits :=
    (Nat.succ_lt_succ ((Nat.log2_lt hpos.ne').mpr f.isLt)).ne
  unfold UnpackedFloat.pack
  dsimp only
  rw [if_neg (by decide), if_neg hlog, BitVec.ofNat_toNat, BitVec.setWidth_eq]

theorem toNat_one_append (f : BitVec 52) : (1#1 ++ f).toNat = leadingWeight + f.toNat := by
  rw [BitVec.toNat_append, ← Nat.shiftLeft_add_eq_or_of_lt f.isLt]
  rfl

theorem pack_normal (s : Sign) (he : e.toNat < 2047) (hpos : 0 < (1#1 ++ f).toNat) :
    UnpackedFloat.pack Format.binary64 (.finite s (1#1 ++ f).toNat ((e.toNat : Int) - 1075) hpos) =
      packComponents Format.binary64 s e f := by
  have hf : f.toNat < 4503599627370496 := f.isLt
  have hlog : (1#1 ++ f).toNat.log2 = 52 := by
    rw [Nat.log2_eq_iff hpos.ne', toNat_one_append]
    unfold leadingWeight
    omega
  have hbiased : ((e.toNat : Int) - 1075 + Format.binary64.exponentBias + (52 : Nat)).toNat = e.toNat := by
    have hbias : Format.binary64.exponentBias = 1023 := rfl
    omega
  have hfraction : BitVec.ofNat 52 (1#1 ++ f).toNat = f := by
    refine BitVec.eq_of_toNat_eq ?_
    rw [BitVec.toNat_ofNat, toNat_one_append]
    unfold leadingWeight
    omega
  have hexponent : BitVec.ofNat 11 e.toNat = e := by rw [BitVec.ofNat_toNat, BitVec.setWidth_eq]
  unfold UnpackedFloat.pack
  dsimp only
  rw [hlog, hbiased, hfraction, hexponent, if_neg (by omega),
    if_pos (show 52 + 1 = Format.binary64.mantissaBits from rfl)]

end Pack

theorem pack_unpack {b : BitVec Format.binary64.numBits} (hvalid : Format.binary64.Valid b) :
    UnpackedFloat.pack Format.binary64 (UnpackedFloat.unpack Format.binary64 b) = b := by
  unfold UnpackedFloat.unpack
  dsimp only
  by_cases hlast : unpackExponent b = -1#_
  · rw [if_pos hlast]
    by_cases hf : unpackMantissa b = 0#_
    · rw [if_pos hf]
      exact packComponents_of hlast hf
    · rw [if_neg hf]
      exact (hvalid.eq_packedNaN hlast hf).symm
  · rw [if_neg hlast]
    by_cases hfirst : unpackExponent b = 0#_
    · rw [if_pos hfirst]
      by_cases hf : unpackMantissa b = 0#_
      · rw [dif_pos hf]
        exact packComponents_of hfirst hf
      · rw [dif_neg hf, hfirst]
        exact (pack_subnormal _ _).trans (packComponents_of hfirst rfl)
    · rw [if_neg hfirst]
      have hlt : (unpackExponent b).toNat < 2047 := by
        have : (unpackExponent b).toNat < 2048 := (unpackExponent b).isLt
        have : (unpackExponent b).toNat ≠ 2047 := fun h => hlast (BitVec.eq_of_toNat_eq h)
        omega
      exact (pack_normal _ hlt _).trans (packComponents_of rfl rfl)

theorem ofBits_toBits (x : Float) : Float.ofBits x.toBits = x := by
  obtain ⟨⟨bits, hvalid⟩⟩ := x
  refine congrArg Float.ofModel ?_
  refine Float.Model.mk.injEq .. |>.mpr ?_
  exact congrArg UInt64.ofBitVec (pack_unpack hvalid)

theorem eq_of_toBits_eq {y : Float} (h : x.toBits = y.toBits) : x = y := by
  rw [← ofBits_toBits x, h, ofBits_toBits]

/-! ## Sign, mantissa and exponent -/

theorem ofBits_finite {bits : UInt64} (h : ofBits bits = .finite negative m q) :
    Canonical m q ∧ bits.toNat = signBits negative + ((q + 1074).toNat * leadingWeight + m) := by
  have hlt := bits.toNat_lt
  unfold ofBits at h
  dsimp only at h
  generalize bits.toNat = n at *
  have hsign : signBits (decide (signWeight ≤ n)) = n / signWeight * signWeight := by
    unfold signBits signWeight
    rcases Nat.lt_or_ge n 9223372036854775808 with hn | hn
    · rw [decide_eq_false hn.not_ge, if_neg Bool.false_ne_true]
      omega
    · rw [decide_eq_true hn, if_pos rfl]
      omega
  unfold signWeight leadingWeight at *
  split at h
  next => split at h <;> cases h
  split at h
  next =>
    cases h
    rw [hsign]
    refine ⟨⟨?_, le_refl _, by norm_num, .inl rfl⟩, ?_⟩
    · unfold leadingWeight
      omega
    · omega
  next =>
    cases h
    rw [hsign]
    refine ⟨⟨?_, by omega, by omega, .inr ?_⟩, ?_⟩
    · unfold leadingWeight
      omega
    · unfold leadingWeight
      omega
    · omega

theorem toNat_unpackExponent (b : BitVec Format.binary64.numBits) :
    (unpackExponent b).toNat = b.toNat / leadingWeight % 2048 := by
  unfold unpackExponent
  rw [BitVec.toNat_cast, BitVec.extractLsb_toNat, Nat.shiftRight_eq_div_pow]
  rfl

theorem unpackExponent_eq_last {b : BitVec Format.binary64.numBits} :
    unpackExponent b = -1#_ ↔ b.toNat / leadingWeight % 2048 = 2047 := by
  rw [← toNat_unpackExponent]
  constructor
  · intro h
    rw [h]
    rfl
  · exact fun h => BitVec.eq_of_toNat_eq h

theorem isFinite_unpack {b : BitVec Format.binary64.numBits} :
    (UnpackedFloat.unpack Format.binary64 b).isFinite = true ↔ b.toNat / leadingWeight % 2048 ≠ 2047 := by
  rw [ne_eq, ← unpackExponent_eq_last]
  unfold UnpackedFloat.unpack
  dsimp only
  by_cases hlast : unpackExponent b = -1#_
  · rw [if_pos hlast]
    refine ⟨fun h => ?_, fun h => absurd hlast h⟩
    split at h <;> cases h
  · rw [if_neg hlast]
    refine ⟨fun _ => hlast, fun _ => ?_⟩
    by_cases hfirst : unpackExponent b = 0#_
    · rw [if_pos hfirst]
      by_cases hf : unpackMantissa b = 0#_
      · rw [dif_pos hf]
        rfl
      · rw [dif_neg hf]
        rfl
    · rw [if_neg hfirst]
      rfl

theorem exists_of_isFinite (h : x.isFinite = true) :
    ∃ negative m q, ofFloat x = .finite negative m q ∧ Canonical m q ∧ x = assemble negative m q := by
  suffices hfinite : ∃ negative m q, ofFloat x = .finite negative m q by
    obtain ⟨negative, m, q, heq⟩ := hfinite
    obtain ⟨hcanon, hbits⟩ := ofBits_finite heq
    exact ⟨negative, m, q, heq, hcanon, by rw [assemble, ← hbits, UInt64.ofNat_toNat, ofBits_toBits]⟩
  unfold ofFloat ofBits
  dsimp only
  split
  next hbiased => exact absurd hbiased (isFinite_unpack.mp h)
  next =>
    split
    · exact ⟨_, _, _, rfl⟩
    · exact ⟨_, _, _, rfl⟩

theorem toBits_ofBits {bits : UInt64} (h : bits.toNat / leadingWeight % 2048 ≠ 2047) :
    (Float.ofBits bits).toBits = bits := by
  have hvalid : Format.binary64.Valid bits.toBitVec :=
    ⟨fun hlast _ => absurd (unpackExponent_eq_last.mp hlast) h⟩
  exact congrArg UInt64.ofBitVec (pack_unpack hvalid)

theorem Canonical.bits_parts (h : Canonical m q) (negative : Bool) {n : Nat}
    (hn : n = signBits negative + ((q + 1074).toNat * leadingWeight + m)) :
    decide (signWeight ≤ n) = negative ∧ n / leadingWeight % 2048 = (q + 1074).toNat + m / leadingWeight ∧
      n % leadingWeight = m % leadingWeight := by
  have hbits := h.bits_lt
  have hlt := h.lt
  have hsign : signBits negative = 0 ∧ negative = false ∨
      signBits negative = signWeight ∧ negative = true := by
    cases negative
    · exact .inl ⟨rfl, rfl⟩
    · exact .inr ⟨rfl, rfl⟩
  unfold signWeight infinityBits leadingWeight at *
  rcases hsign with ⟨hzero, rfl⟩ | ⟨hone, rfl⟩
  · exact ⟨decide_eq_false (by omega), by omega, by omega⟩
  · exact ⟨decide_eq_true (by omega), by omega, by omega⟩

theorem ofFloat_assemble (h : Canonical m q) (negative : Bool) :
    ofFloat (assemble negative m q) = .finite negative m q := by
  have hlt := h.bits_lt
  have hnat : (UInt64.ofNat (signBits negative + ((q + 1074).toNat * leadingWeight + m))).toNat =
      signBits negative + ((q + 1074).toNat * leadingWeight + m) := by
    rw [UInt64.toNat_ofNat_of_lt']
    unfold signBits signWeight
    unfold infinityBits at hlt
    split <;> simp only [UInt64.size] <;> omega
  obtain ⟨hsign, hbiased, hfraction⟩ := h.bits_parts negative hnat
  have hweight : 0 < leadingWeight := by decide
  have hm : m / leadingWeight < 2 := (Nat.div_lt_iff_lt_mul hweight).mpr h.lt
  have hge := h.exponent_ge
  have hle := h.exponent_le
  unfold ofFloat assemble
  rw [toBits_ofBits (by omega)]
  unfold ofBits
  dsimp only
  rw [hbiased, hfraction, if_neg (by omega), hsign]
  rcases Nat.lt_or_ge m leadingWeight with hshort | hlong
  · obtain rfl : q = -1074 := h.normal.resolve_right (Nat.not_le.mpr hshort)
    rw [Nat.div_eq_of_lt hshort, if_pos (by decide), Nat.mod_eq_of_lt hshort]
  · have hone : m / leadingWeight = 1 := by
      have := Nat.div_pos hlong hweight
      omega
    have hrest : m % leadingWeight + leadingWeight = m := by
      have := Nat.div_add_mod m leadingWeight
      rw [hone] at this
      omega
    rw [hone, if_neg (by omega), hrest]
    congr 1
    omega

theorem isFinite_of_ofFloat (h : ofFloat x = .finite negative m q) : x.isFinite = true := by
  refine isFinite_unpack.mpr fun hbiased => ?_
  have hbiased : x.toBits.toNat / leadingWeight % 2048 = 2047 := hbiased
  unfold ofFloat ofBits at h
  dsimp only at h
  rw [if_pos hbiased] at h
  split at h <;> cases h

/-! ## Zeros -/

theorem eq_zero_of_standing {u : UnpackedFloat} (h : standing u = some (toLex (0, toLex (0, 0)))) :
    ∃ s, u = .zero s := by
  rcases u with (_ | _) | _ | s | ⟨(_ | _), m, e, hm⟩
  case zero => exact ⟨s, rfl⟩
  all_goals
    dsimp only [standing] at h
    simp at h

theorem beq_zero_iff : (x == 0) = true ↔ x = 0 ∨ x = -0 := by
  have hzero : place 0 = some (toLex (0, toLex (0, 0))) := rfl
  rw [beq_iff]
  constructor
  · rintro ⟨a, hx, ha⟩
    obtain rfl := Option.some.inj (hzero.symm.trans ha)
    obtain ⟨s, hs⟩ := eq_zero_of_standing hx
    have hpack : x = Float.ofModel (Float.Model.pack x.toModel.unpack) := (ofBits_toBits x).symm
    rw [hpack, hs]
    cases s
    · exact .inr rfl
    · exact .inl rfl
  · rintro (rfl | rfl)
    · exact ⟨_, hzero, hzero⟩
    · exact ⟨_, hzero, hzero⟩

end PivotedLU.Binary64
