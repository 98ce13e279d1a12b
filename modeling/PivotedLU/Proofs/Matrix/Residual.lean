import Mathlib.LinearAlgebra.Matrix.Notation
import PivotedLU.Matrix.Residual
import PivotedLU.Proofs.Magnitude
import PivotedLU.Proofs.Matrix.View
import PivotedLU.Proofs.Settings

/-!
# The distance from the identity

The residual is a running maximum over the entries of a matrix, row by row. It ends at the largest
distance of an entry from that of the identity and at the first place where that distance occurs, so
that the test with a tolerance holds exactly when it holds of every entry.
-/

namespace PivotedLU

open Scalar (less atMost)

/-! ## Distances -/

namespace Binary64

/-- The magnitude of a number; that of a NaN is infinite. -/
def extent (x : Float) : Float :=
  if x.abs.isNaN then infinity false else x.abs

theorem zero_atMost_extent (x : Float) : atMost 0 (extent x) = true := by
  unfold extent
  by_cases h : x.abs.isNaN = true
  · rw [if_pos h]
    decide
  · rw [if_neg h]
    exact zero_atMost_abs (Bool.eq_false_iff.mpr h)

theorem infinity_not_atMost {x : Float} (h : x.isFinite = true) :
    atMost (infinity false) x = false := by
  have h : x.toModel.unpack.isFinite = true := h
  refine Bool.eq_false_iff.mpr fun hle => ?_
  obtain ⟨a, b, ha, hb, hle⟩ := atMost_iff.mp hle
  cases ha
  have hfirst : (2 : Int) ≤ (ofLex b).1 := Prod.Lex.monotone_fst _ _ hle
  unfold place at hb
  cases hx : x.toModel.unpack with
  | notANumber =>
      rw [hx] at h
      cases h
  | infinity s =>
      rw [hx] at h
      cases h
  | zero s =>
      rw [hx] at hb
      cases hb
      exact absurd hfirst (by decide)
  | finite s m q hm =>
      rw [hx] at hb
      cases s with
      | negative =>
          cases hb
          have hfirst : (2 : Int) ≤ -1 := hfirst
          exact absurd hfirst (by decide)
      | positive =>
          cases hb
          have hfirst : (2 : Int) ≤ 1 := hfirst
          exact absurd hfirst (by decide)

theorem extent_eq_zero {x : Float} (h : atMost (extent x) 0 = true) : extent x = 0 := by
  unfold extent at h ⊢
  by_cases hnan : x.abs.isNaN = true
  · rw [if_pos hnan] at h
    exact absurd h (by decide)
  · rw [if_neg hnan] at h ⊢
    exact abs_eq_zero h

end Binary64

variable {n : Nat}

/-- How far an entry is from that of the identity; a NaN is infinitely far. -/
def distance (A : Matrix (Fin n) (Fin n) Float) (i j : Fin n) : Float :=
  Binary64.extent (if i = j then A i j - 1 else A i j)

/-! ## The running maximum -/

namespace Residual

/-- Of the first `k` distances the residual is the largest, and no earlier one is as large. Before any
are seen it is zero. -/
structure Leads (d : Nat → Float) (k : Nat) (r : Residual) : Prop where
  largest : ∀ l < k, atMost (d l) r.worst = true
  attained : k = 0 ∧ r = ⟨0, 0⟩ ∨ r.offset < k ∧ d r.offset = r.worst
  first : ∀ l < r.offset, less (d l) r.worst = true

theorem leads_start (d : Nat → Float) : Leads d 0 ⟨0, 0⟩ :=
  ⟨by simp, .inl ⟨rfl, rfl⟩, by simp⟩

variable {d : Nat → Float} (hpos : ∀ k, atMost 0 (d k) = true)
  (hzero : ∀ k, atMost (d k) 0 = true → d k = 0)

include hpos hzero

theorem Leads.step {k : Nat} {r : Residual} (h : Leads d k r) :
    Leads d (k + 1) (if r.worst < d k then ⟨d k, k⟩ else r) := by
  have hself : ∀ l, atMost (d l) (d l) = true := fun l => (Scalar.Ordered.self_of_atMost (hpos l)).2
  by_cases hbeaten : r.worst < d k
  · have hbefore : ∀ l < k, less (d l) (d k) = true := fun l hl =>
      Scalar.Ordered.less_of_atMost_of_less (h.largest l hl) (decide_eq_true hbeaten)
    rw [if_pos hbeaten]
    refine ⟨fun l hl => ?_, .inr ⟨Nat.lt_succ_self k, rfl⟩, hbefore⟩
    refine Scalar.Ordered.atMost_of_not_less (hself l) (hself k) (Bool.eq_false_iff.mpr fun hless => ?_)
    rcases Nat.lt_succ_iff_lt_or_eq.mp hl with hl | rfl
    · exact Bool.eq_false_iff.mp (Scalar.Ordered.less_irrefl _)
        (Scalar.Ordered.less_trans hless (hbefore l hl))
    · exact Bool.eq_false_iff.mp (Scalar.Ordered.less_irrefl _) hless
  · rw [if_neg hbeaten]
    have hworst : atMost r.worst r.worst = true := by
      rcases h.attained with ⟨-, rfl⟩ | ⟨-, heq⟩
      · rfl
      · exact heq ▸ hself r.offset
    have hlast : atMost (d k) r.worst = true :=
      Scalar.Ordered.atMost_of_not_less (hself k) hworst (decide_eq_false hbeaten)
    refine ⟨fun l hl => ?_, .inr ?_, h.first⟩
    · rcases Nat.lt_succ_iff_lt_or_eq.mp hl with hl | rfl
      · exact h.largest l hl
      · exact hlast
    · rcases h.attained with ⟨rfl, rfl⟩ | ⟨hlt, heq⟩
      · exact ⟨Nat.one_pos, hzero 0 hlast⟩
      · exact ⟨Nat.lt_succ_of_lt hlt, heq⟩

theorem fold_leads (entries : List Float) {k : Nat} {r : Residual}
    (hd : ∀ l v, entries[l]? = some v → deviation n (k + l) v = .ok (d (k + l))) (h : Leads d k r) :
    ∃ r', fold n k entries r = .ok r' ∧ Leads d (k + entries.length) r' := by
  induction entries generalizing k r with
  | nil => exact ⟨r, rfl, h⟩
  | cons v vs ih =>
      have hv : deviation n k v = .ok (d k) := hd 0 v rfl
      rw [fold, hv, List.length_cons, Nat.add_comm vs.length, ← Nat.add_assoc]
      refine ih (fun l w hw => ?_) (h.step hpos hzero)
      rw [Nat.add_assoc, Nat.add_comm 1]
      exact hd (l + 1) w hw

end Residual

/-! ## Matrices shown -/

/-- The distance of the entry at a place of the row-major order. -/
def distanceAt (n : Nat) (data : Array Float) (k : Nat) : Float :=
  Binary64.extent (if k / n = k % n then cellAt data k - 1 else cellAt data k)

theorem deviation_cellAt (hn : 0 < n) {data : Array Float} {k : Nat} {v : Float}
    (hv : data.toList[k]? = some v) : deviation n k v = .ok (distanceAt n data k) := by
  have hcell : cellAt data k = v := by
    rw [Array.getElem?_toList] at hv
    simp [cellAt, hv]
  rw [deviation, if_neg hn.ne', distanceAt, hcell]
  rfl

variable {A : Matrix (Fin n) (Fin n) Float} {m : Dense Float}

theorem RowMajor.distanceAt {data : Array Float} (h : RowMajor data A) (i j : Fin n) :
    distanceAt n data (i * n + j) = distance A i j := by
  have hij : ((i : Nat) = j) = (i = j) := by rw [Fin.ext_iff]
  rw [PivotedLU.distanceAt, distance, place_div j.isLt, place_mod j.isLt, h.cellAt i.isLt j.isLt,
    entryAt_val]
  simp only [hij]

theorem Dense.Shows.exists_leads (h : m.Shows A) : ∃ r, identityResidual (some (.dense m)) = .ok r ∧
    Residual.Leads (distanceAt n m.data) (n * n) r := by
  obtain ⟨r, hr, hleads⟩ := Residual.fold_leads (n := n) (d := PivotedLU.distanceAt n m.data)
    (fun k => Binary64.zero_atMost_extent _) (fun k => Binary64.extent_eq_zero) m.data.toList
    (fun l v hv => by rw [Nat.zero_add]; exact deviation_cellAt h.fits.rows_pos hv)
    (Residual.leads_start _)
  rw [Array.length_toList, h.data.size, Nat.zero_add] at hleads
  refine ⟨r, ?_, hleads⟩
  simp only [identityResidual, h.operand.isSquare, h.operand.rowCount, Operand.flatten, hr, bind,
    Except.bind, Result.ofFaulty]
  rfl

theorem Dense.Shows.identityResidual (h : m.Shows A) : ∃ r,
    PivotedLU.identityResidual (some (.dense m)) = .ok r ∧
      (∃ i j : Fin n, r.offset = i * n + j ∧ r.worst = distance A i j) ∧
      (∀ i j, distance A i j ≤ r.worst) ∧
      ∀ i j : Fin n, i * n + j < r.offset → distance A i j < r.worst := by
  obtain ⟨r, hr, hleads⟩ := h.exists_leads
  refine ⟨r, hr, ?_, fun i j => ?_, fun i j hij => ?_⟩
  · rcases hleads.attained with ⟨hempty, -⟩ | ⟨hlt, heq⟩
    · exact absurd hempty (Nat.mul_pos h.fits.rows_pos h.fits.cols_pos).ne'
    · obtain ⟨i, hi, j, hj, hplace⟩ := exists_place hlt
      refine ⟨⟨i, hi⟩, ⟨j, hj⟩, hplace.symm, ?_⟩
      rw [← heq, ← hplace]
      exact h.data.distanceAt ⟨i, hi⟩ ⟨j, hj⟩
  · have hle := hleads.largest (i * n + j) (place_lt i.isLt j.isLt)
    rw [h.data.distanceAt] at hle
    exact of_decide_eq_true hle
  · have hless := hleads.first (i * n + j) hij
    rw [h.data.distanceAt] at hless
    exact of_decide_eq_true hless

theorem distance_of_isNaN {i j : Fin n} (h : (A i j).isNaN = true) :
    distance A i j = Binary64.infinity false := by
  unfold distance Binary64.extent
  by_cases hij : i = j
  · rw [if_pos hij, if_pos (Binary64.isNaN_abs (Binary64.isNaN_sub h 1))]
  · rw [if_neg hij, if_pos (Binary64.isNaN_abs h)]

theorem Dense.Shows.isIdentity (h : m.Shows A) {r : Residual}
    (hr : PivotedLU.identityResidual (some (.dense m)) = .ok r) (settings : Settings) :
    PivotedLU.isIdentity (some (.dense m)) settings = .ok (decide (r.worst ≤ settings.epsilon)) := by
  have hshape : (Operand.dense m).shape.rows = (Operand.dense m).shape.cols := by rw [h.operand.shape]
  simp only [PivotedLU.isIdentity, Check.isPresent, hr, hshape, bind, Except.bind, ne_eq,
    not_true_eq_false, if_false]
  rfl

/-- The residual of a square matrix is the largest distance of an entry from that of the identity,
given with the first place in the row-major order where it occurs, and the test with a tolerance holds
if and only if no entry is a NaN or farther than the tolerance. -/
theorem identityResidual_first_largest (h : m.Shows A) :
    (∃ r, identityResidual (some (.dense m)) = .ok r ∧
      (∃ i j : Fin n, r.offset = i * n + j ∧ r.worst = distance A i j) ∧
      (∀ i j, distance A i j ≤ r.worst) ∧
      ∀ i j : Fin n, i * n + j < r.offset → distance A i j < r.worst) ∧
    ∀ eps, Setting.isTolerance eps = true → ∃ settings answer,
      Settings.make [some (.epsilon eps)] = .ok settings ∧
      isIdentity (some (.dense m)) settings = .ok answer ∧
      (answer = true ↔ ∀ i j, (A i j).isNaN = false ∧ distance A i j ≤ eps) := by
  refine ⟨h.identityResidual, fun eps heps => ?_⟩
  obtain ⟨r, hr, ⟨i, j, -, hworst⟩, hlargest, -⟩ := h.identityResidual
  have hmake : Settings.make [some (.epsilon eps)] = .ok { epsilon := eps } := by
    simp [Settings.make, Settings.check, Setting.check, heps, Settings.resolve, Setting.apply]
  refine ⟨_, _, hmake, h.isIdentity hr _, ?_⟩
  rw [decide_eq_true_iff]
  constructor
  · intro hle k l
    have hkl : atMost (distance A k l) eps = true :=
      Scalar.Ordered.atMost_trans (decide_eq_true (hlargest k l)) (decide_eq_true hle)
    refine ⟨Bool.eq_false_iff.mpr fun hnan => ?_, of_decide_eq_true hkl⟩
    rw [distance_of_isNaN hnan, Binary64.infinity_not_atMost (Bool.and_eq_true_iff.mp heps).1] at hkl
    cases hkl
  · intro hall
    rw [hworst]
    exact (hall i j).2

/-- Two entries are farthest, and the first one counts; a tolerance between the distances is too
small. -/
theorem identityResidual_first_largest_tie :
    (∃ r, identityResidual (some (.dense (.ofMatrix !![1, -0.5; 0.5, 1.25]))) = .ok r ∧
      r.offset = 1 ∧ ∀ i j, distance !![1, -0.5; 0.5, 1.25] i j ≤ r.worst) ∧
    ∃ settings, Settings.make [some (.epsilon 0.375)] = .ok settings ∧
      isIdentity (some (.dense (.ofMatrix !![1, -0.5; 0.5, 1.25]))) settings = .ok false := by
  have h := Dense.shows_ofMatrix ⟨by decide, by decide, by decide⟩
    (!![1, -0.5; 0.5, 1.25] : Matrix (Fin 2) (Fin 2) Float)
  obtain ⟨⟨r, hr, -, hlargest, -⟩, htest⟩ := identityResidual_first_largest h
  obtain ⟨settings, answer, hmake, hanswer, hiff⟩ := htest 0.375 (by decide)
  have hrun : (identityResidual (some (.dense (.ofMatrix !![1, -0.5; 0.5, 1.25])))).toOption.map
      (·.offset) = some 1 := by decide +kernel
  rw [hr] at hrun
  refine ⟨⟨r, hr, Option.some.inj hrun, hlargest⟩, settings, hmake, ?_⟩
  cases answer with
  | false => exact hanswer
  | true => exact absurd (hiff.mp rfl 0 1).2 (by decide)

end PivotedLU
