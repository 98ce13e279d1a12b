import PivotedLU.Proofs.Order
import PivotedLU.Settings

/-!
# Tolerances in force

Whatever a caller chooses, the pivot tolerance in force is at least zero.
-/

namespace PivotedLU

/-! ## Tolerances among the numbers -/

theorem Binary64.exists_place_of_isFinite {x : Float} (h : x.isFinite = true) :
    ∃ a, place x = some a := by
  have h : x.toModel.unpack.isFinite = true := h
  unfold place
  cases hx : x.toModel.unpack with
  | notANumber =>
      rw [hx] at h
      cases h
  | infinity sign => cases sign <;> exact ⟨_, rfl⟩
  | zero sign => exact ⟨_, rfl⟩
  | finite sign m e hm => cases sign <;> exact ⟨_, rfl⟩

theorem Setting.zero_atMost {x : Float} (h : isTolerance x = true) : Scalar.atMost 0 x = true := by
  simp only [isTolerance, Bool.and_eq_true, Bool.not_eq_true'] at h
  obtain ⟨hfinite, hless⟩ := h
  have hself := Binary64.atMost_self_iff.mpr (Binary64.exists_place_of_isFinite hfinite)
  cases hle : Scalar.atMost 0 x with
  | true => rfl
  | false =>
      have hbelow : Scalar.less x 0 = true := Scalar.Ordered.less_of_not_atMost (by rfl) hself hle
      exact absurd hbelow (Bool.eq_false_iff.mp hless)

/-- Both zeros are the same tolerance. -/
theorem Binary64.atMost_of_beq_zero {tol : Float} (h : (tol == 0) = true) (x : Float) :
    Scalar.atMost x tol = Scalar.atMost x 0 := by
  obtain ⟨a, ha, hzero⟩ := beq_iff.mp h
  rw [Bool.eq_iff_iff, atMost_iff, atMost_iff, ha, hzero]

/-! ## Choices -/

namespace Settings

theorem isTolerance_foldl {choices : List (Option Setting)} {s : Settings}
    (hs : Setting.isTolerance s.pivotTolerance = true) (h : check choices = .ok ()) :
    Setting.isTolerance
      (choices.foldl (fun s choice => choice.elim s (Setting.apply s)) s).pivotTolerance = true := by
  induction choices generalizing s with
  | nil => exact hs
  | cons choice rest ih =>
      cases choice with
      | none => exact ih hs h
      | some choice =>
          simp only [check] at h
          cases hchoice : choice.check with
          | error failure =>
              rw [hchoice] at h
              cases h
          | ok _ =>
              rw [hchoice] at h
              refine ih ?_ h
              cases choice with
              | pivotTolerance tol =>
                  rw [Setting.check] at hchoice
                  split at hchoice
                  next htol => exact htol
                  next => cases hchoice
              | epsilon eps => exact hs
              | strict on => exact hs

theorem isTolerance_of_make {choices : List (Option Setting)} {settings : Settings}
    (h : make choices = .ok settings) : Setting.isTolerance settings.pivotTolerance = true := by
  rw [make] at h
  cases hcheck : check choices with
  | error failure =>
      rw [hcheck] at h
      cases h
  | ok _ =>
      rw [hcheck] at h
      cases h
      exact isTolerance_foldl (s := {}) rfl hcheck

end Settings

end PivotedLU
