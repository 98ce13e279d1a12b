import PivotedLU.Error
import PivotedLU.Loop

/-!
# Kinds of results

A result is a value, an error of the domain, a refused setting or a fault. Of the errors only one
can come from a computation: that a matrix is singular. All others are found by checks.
-/

namespace PivotedLU

namespace Result

variable {β γ : Type} {r : Result β} {cause : Cause}

/-- A value, or the error of a matrix that turned out to be singular. -/
def Computed (r : Result β) : Prop :=
  (∃ v, r = .ok v) ∨ ∃ path, r = .error (.error ⟨path, .singular⟩)

/-- An error of the domain other than that of a singular matrix. -/
def Rejected (r : Result β) : Prop :=
  ∃ e : Error, r = .error (.error e) ∧ e.cause ≠ .singular

/-- Arguments that are accepted lead to a computed result, all others are rejected. -/
structure Settled (r : Result β) (accepted : Prop) : Prop where
  computed : accepted → r.Computed
  rejected : ¬ accepted → r.Rejected

theorem rejected_fail (h : cause ≠ .singular) : (fail cause : Result β).Rejected :=
  ⟨⟨[], cause⟩, rfl, h⟩

theorem Rejected.within (frame : Frame) (h : r.Rejected) : (r.within frame).Rejected := by
  obtain ⟨e, rfl, he⟩ := h
  exact ⟨⟨frame :: e.path, e.cause⟩, rfl, he⟩

theorem Rejected.bind (h : r.Rejected) (next : β → Result γ) : (r >>= next).Rejected := by
  obtain ⟨e, rfl, he⟩ := h
  exact ⟨e, rfl, he⟩

/-! ## Values -/

theorem ok_of_within {frame : Frame} {v : β} (h : r.within frame = .ok v) : r = .ok v := by
  cases r with
  | ok w => exact h
  | error f => cases h

theorem ok_of_ofFaulty {x : Except Fault β} {v : β} (h : ofFaulty x = .ok v) : x = .ok v := by
  cases x with
  | ok w =>
      cases h
      rfl
  | error f => cases h

/-- A value without an error beside it is the value of the result. -/
theorem ok_of_handed {blank v : β} (h : r.handed blank = .ok ⟨v, none⟩) : r = .ok v := by
  cases r with
  | ok w =>
      cases h
      rfl
  | error f => cases f <;> cases h

/-! ## Errors by cause -/

/-- An error of the domain with this cause. -/
def FailsWith (r : Result β) (cause : Cause) : Prop :=
  ∃ path, r = .error (.error ⟨path, cause⟩)

theorem failsWith_fail (cause : Cause) : (fail cause : Result β).FailsWith cause :=
  ⟨[], rfl⟩

theorem FailsWith.within (frame : Frame) (h : r.FailsWith cause) : (r.within frame).FailsWith cause := by
  obtain ⟨path, rfl⟩ := h
  exact ⟨frame :: path, rfl⟩

theorem FailsWith.bind (h : r.FailsWith cause) (next : β → Result γ) : (r >>= next).FailsWith cause := by
  obtain ⟨path, rfl⟩ := h
  exact ⟨path, rfl⟩

theorem FailsWith.ne_ok (h : r.FailsWith cause) (v : β) : r ≠ .ok v := by
  obtain ⟨path, rfl⟩ := h
  rintro ⟨⟩

/-! ## Results without faults -/

variable {post : β → Prop} {post' : γ → Prop}

/-- A value with the property, or an error of the domain: no fault and no refused setting. -/
def Gives (r : Result β) (post : β → Prop) : Prop :=
  (∃ v, r = .ok v ∧ post v) ∨ ∃ e : Error, r = .error (.error e)

theorem gives_ok {v : β} (h : post v) : Gives (.ok v) post :=
  .inl ⟨v, rfl, h⟩

theorem gives_fail (cause : Cause) (post : β → Prop) : Gives (fail cause) post :=
  .inr ⟨⟨[], cause⟩, rfl⟩

theorem gives_ofFaulty {x : Except Fault β} (h : ∃ v, x = .ok v ∧ post v) :
    Gives (ofFaulty x) post := by
  obtain ⟨v, rfl, hv⟩ := h
  exact gives_ok hv

namespace Gives

theorem of_ok {v : β} (h : r.Gives post) (hr : r = .ok v) : post v := by
  rcases h with ⟨v', hv', hpost⟩ | ⟨e, he⟩
  · cases hr.symm.trans hv'
    exact hpost
  · cases hr.symm.trans he

theorem mono {post₂ : β → Prop} (h : r.Gives post) (himp : ∀ v, post v → post₂ v) : r.Gives post₂ := by
  rcases h with ⟨v, hv, hpost⟩ | herror
  · exact .inl ⟨v, hv, himp v hpost⟩
  · exact .inr herror

theorem within (frame : Frame) (h : r.Gives post) : (r.within frame).Gives post := by
  rcases h with ⟨v, rfl, hpost⟩ | ⟨e, rfl⟩
  · exact gives_ok hpost
  · exact .inr ⟨⟨frame :: e.path, e.cause⟩, rfl⟩

theorem bind {next : β → Result γ} (h : r.Gives post) (hnext : ∀ v, post v → (next v).Gives post') :
    (r >>= next).Gives post' := by
  rcases h with ⟨v, rfl, hpost⟩ | ⟨e, rfl⟩
  · exact hnext v hpost
  · exact .inr ⟨e, rfl⟩

/-- A value is handed over in any case, and it has the property unless it stands beside an error. -/
theorem handed (h : r.Gives post) (blank : β) :
    ∃ v, r.handed blank = .ok v ∧ (v.error = none → post v.value) := by
  rcases h with ⟨v, rfl, hpost⟩ | ⟨e, rfl⟩
  · exact ⟨⟨v, none⟩, rfl, fun _ => hpost⟩
  · exact ⟨⟨blank, some e⟩, rfl, fun hnone => absurd hnone (Option.some_ne_none e)⟩

end Gives

end Result

/-- A loop whose every pass gives a result does so itself. -/
theorem Loop.up_gives {σ : Type} {step : Nat → σ → Result σ} {lo hi : Nat} {s : σ}
    (inv : Nat → σ → Prop) (hle : lo ≤ hi) (h : inv lo s)
    (hstep : ∀ i s, i < hi → inv i s → (step i s).Gives (inv (i + 1))) :
    Result.Gives (Loop.up lo hi step s) (inv hi) := by
  obtain ⟨d, rfl⟩ := Nat.exists_eq_add_of_le hle
  induction d generalizing lo s with
  | zero =>
      rw [Nat.add_zero, up_of_le (Nat.le_refl _)]
      exact Result.gives_ok h
  | succ d ih =>
      have hadd : lo + (d + 1) = lo + 1 + d := by omega
      rw [hadd] at hstep ⊢
      rw [up_succ (by omega)]
      exact (hstep lo s (by omega) h).bind fun s' hs' => ih hs' (by omega) hstep

end PivotedLU
