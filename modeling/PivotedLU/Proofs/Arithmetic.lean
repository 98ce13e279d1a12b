import PivotedLU.Proofs.Bits

/-!
# Arithmetic of numbers

The laws of rounded arithmetic that products of matrices rest on: factors can be exchanged, a factor
one and a summand zero change nothing, and zero times a finite number is a zero.
-/

namespace PivotedLU.Binary64

open Float.Model Float.Model.UnpackedFloat

variable {x y z : Float} {s : Sign} {m : Nat} {q : Int}

/-! ## Unpacked numbers -/

theorem pack_unpacked (x : Float) : Float.ofModel (Float.Model.pack x.toModel.unpack) = x :=
  ofBits_toBits x

theorem mul_signs (s t : UnpackedFloat.Sign) : s * t = t * s := by
  cases s <;> cases t <;> rfl

theorem mul_unpacked (spec : Format) (u v : UnpackedFloat) : u.mul spec v = v.mul spec u := by
  cases u with
  | notANumber => cases v <;> rfl
  | infinity s =>
      cases v with
      | notANumber => rfl
      | zero t => rfl
      | infinity t => exact congrArg UnpackedFloat.infinity (mul_signs s t)
      | finite t m e h => exact congrArg UnpackedFloat.infinity (mul_signs s t)
  | zero s =>
      cases v with
      | notANumber => rfl
      | infinity t => rfl
      | zero t => exact congrArg UnpackedFloat.zero (mul_signs s t)
      | finite t m e h => exact congrArg UnpackedFloat.zero (mul_signs s t)
  | finite s m e h =>
      cases v with
      | notANumber => rfl
      | infinity t => exact congrArg UnpackedFloat.infinity (mul_signs s t)
      | zero t => exact congrArg UnpackedFloat.zero (mul_signs s t)
      | finite t m' e' h' =>
          show UnpackedFloat.roundWithAccuracy spec (s * t) (m * m') (e + e') .exact =
            UnpackedFloat.roundWithAccuracy spec (t * s) (m' * m) (e' + e) .exact
          rw [mul_signs, Nat.mul_comm, Int.add_comm]

/-- A product is rounded once, whichever factor comes first. There is one NaN. -/
theorem mul_numbers (x y : Float) : x * y = y * x :=
  congrArg (fun u => Float.ofModel (pack u)) (mul_unpacked _ x.toModel.unpack y.toModel.unpack)

end PivotedLU.Binary64
