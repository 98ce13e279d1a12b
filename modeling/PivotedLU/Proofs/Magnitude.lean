import PivotedLU.Proofs.Arithmetic

/-!
# Magnitudes of numbers

A magnitude is a NaN or at least zero, and the only zero among magnitudes is the positive one.
-/

namespace PivotedLU.Binary64

open Float.Model Float.Model.UnpackedFloat

variable {x : Float}

/-! ## NaNs -/

theorem unpack_of_isNaN (h : x.isNaN = true) : x.toModel.unpack = .notANumber := by
  have h : x.toModel.unpack.isNaN = true := h
  cases hx : x.toModel.unpack with
  | notANumber => rfl
  | _ =>
      rw [hx] at h
      cases h

theorem isNaN_abs (h : x.isNaN = true) : x.abs.isNaN = true := by
  have habs : x.abs = Float.ofModel (Float.Model.pack x.toModel.unpack.abs) := rfl
  rw [habs, unpack_of_isNaN h]
  rfl

theorem isNaN_sub (h : x.isNaN = true) (y : Float) : (x - y).isNaN = true := by
  have hsub : x - y = Float.ofModel (Float.Model.pack
      (x.toModel.unpack.sub Format.binary64 y.toModel.unpack)) := rfl
  have hnan : UnpackedFloat.sub Format.binary64 .notANumber y.toModel.unpack = .notANumber := by
    cases y.toModel.unpack <;> rfl
  rw [hsub, unpack_of_isNaN h, hnan]
  rfl

/-! ## Signs -/

theorem unpackSign_packComponents (s : Sign) (e : BitVec Format.binary64.exponentBits)
    (f : BitVec Format.binary64.mantissaBitsWithoutImplicit) :
    Sign.ofBitVec (unpackSign (packComponents Format.binary64 s e f)) = s := by
  have h : unpackSign (packComponents Format.binary64 s e f) = s.toBitVec := by
    unfold unpackSign packComponents
    ext i hi
    grind
  rw [h]
  cases s <;> rfl

theorem exists_pack_abs (u : UnpackedFloat) : ∃ e f,
    UnpackedFloat.pack Format.binary64 u.abs = packComponents Format.binary64 .positive e f := by
  cases u with
  | notANumber => exact ⟨_, _, rfl⟩
  | infinity s => exact ⟨_, _, rfl⟩
  | zero s => exact ⟨_, _, rfl⟩
  | finite s m q hm =>
      unfold UnpackedFloat.abs UnpackedFloat.pack
      dsimp only
      by_cases hlarge : 2 ^ Format.binary64.exponentBits ≤
          (q + Format.binary64.exponentBias + Format.binary64.mantissaBitsWithoutImplicit).toNat + 1
      · rw [if_pos hlarge]
        exact ⟨_, _, rfl⟩
      · rw [if_neg hlarge]
        by_cases hnormal : m.log2 + 1 = Format.binary64.mantissaBits
        · rw [if_pos hnormal]
          exact ⟨_, _, rfl⟩
        · rw [if_neg hnormal]
          exact ⟨_, _, rfl⟩

theorem unpack_of_positive {b : BitVec Format.binary64.numBits}
    (hb : Sign.ofBitVec (unpackSign b) = .positive) :
    UnpackedFloat.unpack Format.binary64 b = .notANumber ∨
      UnpackedFloat.unpack Format.binary64 b = .infinity .positive ∨
      UnpackedFloat.unpack Format.binary64 b = .zero .positive ∨
      ∃ m q hm, UnpackedFloat.unpack Format.binary64 b = .finite .positive m q hm := by
  unfold UnpackedFloat.unpack
  dsimp only
  rw [hb]
  by_cases hlast : unpackExponent b = -1#_
  · rw [if_pos hlast]
    by_cases hzero : unpackMantissa b = 0#_
    · rw [if_pos hzero]
      exact .inr (.inl rfl)
    · rw [if_neg hzero]
      exact .inl rfl
  · rw [if_neg hlast]
    by_cases hfirst : unpackExponent b = 0#_
    · rw [if_pos hfirst]
      by_cases hzero : unpackMantissa b = 0#_
      · rw [dif_pos hzero]
        exact .inr (.inr (.inl rfl))
      · have hpos : 0 < (unpackMantissa b).toNat :=
          Nat.pos_of_ne_zero fun h => hzero (BitVec.eq_of_toNat_eq h)
        rw [dif_neg hzero]
        exact .inr (.inr (.inr ⟨_, _, hpos, rfl⟩))
    · have hpos : 0 < (1#1 ++ unpackMantissa b).toNat :=
        Nat.lt_of_lt_of_eq (Nat.add_pos_left (by decide) _) (toNat_one_append (unpackMantissa b)).symm
      rw [if_neg hfirst]
      exact .inr (.inr (.inr ⟨_, _, hpos, rfl⟩))

/-- A magnitude is a NaN or has the positive sign. -/
theorem unpack_abs (x : Float) : x.abs.toModel.unpack = .notANumber ∨
    x.abs.toModel.unpack = .infinity .positive ∨ x.abs.toModel.unpack = .zero .positive ∨
    ∃ m q hm, x.abs.toModel.unpack = .finite .positive m q hm := by
  obtain ⟨e, f, hpack⟩ := exists_pack_abs x.toModel.unpack
  refine unpack_of_positive (b := UnpackedFloat.pack Format.binary64 x.toModel.unpack.abs) ?_
  rw [hpack, unpackSign_packComponents]

/-! ## Zero -/

theorem zero_atMost_abs (h : x.abs.isNaN = false) : Scalar.atMost 0 x.abs = true := by
  have h : x.abs.toModel.unpack.isNaN = false := h
  refine atMost_iff.mpr ⟨toLex (0, toLex (0, 0)), ?_⟩
  unfold place
  rcases unpack_abs x with hx | hx | hx | ⟨m, q, hm, hx⟩
  · rw [hx] at h
    cases h
  · rw [hx]
    exact ⟨_, rfl, rfl, by decide⟩
  · rw [hx]
    exact ⟨_, rfl, rfl, by decide⟩
  · rw [hx]
    refine ⟨_, rfl, rfl, ?_⟩
    rw [Prod.Lex.le_iff]
    exact .inl Int.one_pos

theorem abs_eq_zero (h : Scalar.atMost x.abs 0 = true) : x.abs = 0 := by
  have hpack := pack_unpacked x.abs
  obtain ⟨a, b, ha, hb, hle⟩ := atMost_iff.mp h
  cases hb
  unfold place at ha
  rcases unpack_abs x with hx | hx | hx | ⟨m, q, hm, hx⟩
  · rw [hx] at ha
    cases ha
  · rw [hx] at ha
    cases ha
    exact absurd hle (by decide)
  · rw [← hpack, hx]
    rfl
  · rw [hx] at ha
    cases ha
    rw [Prod.Lex.le_iff] at hle
    simp at hle

end PivotedLU.Binary64
