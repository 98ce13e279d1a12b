import Mathlib.Data.Prod.Lex
import PivotedLU.Scalar

/-!
# Ordered scalars

What the choice of a pivot needs of the two comparisons. A scalar that is not at most itself, such
as a NaN, compares to nothing.
-/

namespace PivotedLU

/-- Among the scalars that are at most themselves, `less` and `atMost` are a total order. -/
class Scalar.Ordered (α : Type) [Scalar α] : Prop where
  less_irrefl (x : α) : less x x = false
  less_trans {x y z : α} : less x y = true → less y z = true → less x z = true
  less_of_atMost_of_less {x y z : α} : atMost x y = true → less y z = true → less x z = true
  self_of_less {x y : α} : less x y = true → atMost y y = true
  self_of_atMost {x y : α} : atMost x y = true → atMost x x = true ∧ atMost y y = true
  less_of_not_atMost {x y : α} : atMost x x = true → atMost y y = true → atMost x y = false →
    less y x = true

theorem Scalar.Ordered.atMost_trans {α : Type} [Scalar α] [Scalar.Ordered α] {x y z : α}
    (h : atMost x y = true) (h' : atMost y z = true) : atMost x z = true := by
  refine Bool.not_eq_false _ |>.mp fun hnot => ?_
  have hless : less z x = true :=
    less_of_not_atMost (self_of_atMost h).1 (self_of_atMost h').2 hnot
  exact Bool.eq_false_iff.mp (less_irrefl x)
    (less_of_atMost_of_less h (less_of_atMost_of_less h' hless))

theorem Scalar.Ordered.atMost_of_not_less {α : Type} [Scalar α] [Scalar.Ordered α] {x y : α}
    (hx : atMost x x = true) (hy : atMost y y = true) (h : less y x = false) : atMost x y = true := by
  refine Bool.not_eq_false _ |>.mp fun hnot => ?_
  exact Bool.eq_false_iff.mp h (less_of_not_atMost hx hy hnot)

/-! ## Binary64 -/

namespace Binary64

open Float.Model

/-- Where a number stands among all others, infinities included; a NaN stands nowhere. -/
def standing : UnpackedFloat → Option (Int ×ₗ Int ×ₗ Int)
  | .notANumber => none
  | .infinity .negative => some (toLex (-2, toLex (0, 0)))
  | .finite .negative m e _ => some (toLex (-1, toLex (-e, -(m : Int))))
  | .zero _ => some (toLex (0, toLex (0, 0)))
  | .finite .positive m e _ => some (toLex (1, toLex (e, (m : Int))))
  | .infinity .positive => some (toLex (2, toLex (0, 0)))

theorem compare_signs (s t : UnpackedFloat.Sign) : compare s t =
    match s, t with
    | .negative, .positive => .lt
    | .positive, .negative => .gt
    | _, _ => .eq := by
  cases s <;> cases t <;> rfl

theorem compare_magnitudes (e e' : Int) (m m' : Nat) : (compare e e').then (compare m m') =
    if e < e' ∨ e = e' ∧ m < m' then .lt else if e' < e ∨ e' = e ∧ m' < m then .gt else .eq := by
  rcases lt_trichotomy e e' with h | rfl | h
  · simp [compare, compareOfLessAndEq, h]
  · rcases lt_trichotomy m m' with h | rfl | h
    · simp [compare, compareOfLessAndEq, h]
    · simp [compare, compareOfLessAndEq]
    · simp [compare, compareOfLessAndEq, h, h.not_gt, h.ne']
  · simp [compare, compareOfLessAndEq, h, h.not_gt, h.ne']

theorem compare_eq (u v : UnpackedFloat) :
    u.compare v = (standing u).bind fun a => (standing v).map fun b => cmp a b := by
  rcases u with (_ | _) | _ | _ | ⟨(_ | _), m, e, hm⟩ <;>
    rcases v with (_ | _) | _ | _ | ⟨(_ | _), m', e', hm'⟩ <;>
    dsimp only [standing, UnpackedFloat.compare, Option.bind, Option.map, cmp, cmpUsing] <;>
    simp [Prod.Lex.lt_iff, compare_signs]
  case finite.positive.finite.positive => exact compare_magnitudes e e' m m'
  case finite.negative.finite.negative =>
    -- Of two negative numbers the one of larger magnitude comes first.
    rw [Ordering.swap_then, Int.compare_swap, Nat.compare_swap, compare_magnitudes]
    simp only [eq_comm]

/-- Where a number stands; the two zeros stand at one place. -/
def place (x : Float) : Option (Int ×ₗ Int ×ₗ Int) :=
  standing x.toModel.unpack

theorem compare_eq_some_iff {x y : Float} {o : Ordering} :
    x.toModel.unpack.compare y.toModel.unpack = some o ↔
      ∃ a b, place x = some a ∧ place y = some b ∧ cmp a b = o := by
  rw [compare_eq, Option.bind_eq_some_iff]
  constructor
  · rintro ⟨a, ha, h⟩
    obtain ⟨b, hb, hab⟩ := Option.map_eq_some_iff.mp h
    exact ⟨a, b, ha, hb, hab⟩
  · rintro ⟨a, b, ha, hb, hab⟩
    exact ⟨a, ha, Option.map_eq_some_iff.mpr ⟨b, hb, hab⟩⟩

theorem less_iff {x y : Float} :
    Scalar.less x y = true ↔ ∃ a b, place x = some a ∧ place y = some b ∧ a < b := by
  have h : Scalar.less x y = (x.toModel.unpack.compare y.toModel.unpack == some .lt) := by
    show decide (decide (_ = true) = true) = _
    rw [Bool.decide_eq_true, Bool.decide_eq_true]
    rfl
  rw [h, beq_iff_eq, compare_eq_some_iff]
  exact exists₂_congr fun a b => and_congr_right' (and_congr_right' (cmp_eq_lt_iff a b))

theorem atMost_iff {x y : Float} :
    Scalar.atMost x y = true ↔ ∃ a b, place x = some a ∧ place y = some b ∧ a ≤ b := by
  have h : Scalar.atMost x y = (x.toModel.unpack.compare y.toModel.unpack).any (·.isLE) := by
    show decide (decide (_ = true) = true) = _
    rw [Bool.decide_eq_true, Bool.decide_eq_true]
    rfl
  have hle (a b : Int ×ₗ Int ×ₗ Int) : (cmp a b).isLE = true ↔ a ≤ b := by
    rw [Ordering.isLE_iff_ne_gt, cmp_eq_gt_iff, not_lt]
  rw [h, Option.any_eq_true]
  constructor
  · rintro ⟨o, ho, hole⟩
    obtain ⟨a, b, ha, hb, rfl⟩ := compare_eq_some_iff.mp ho
    exact ⟨a, b, ha, hb, (hle a b).mp hole⟩
  · rintro ⟨a, b, ha, hb, hab⟩
    exact ⟨cmp a b, compare_eq_some_iff.mpr ⟨a, b, ha, hb, rfl⟩, (hle a b).mpr hab⟩

theorem beq_iff {x y : Float} : (x == y) = true ↔ ∃ a, place x = some a ∧ place y = some a := by
  have h : (x == y) = (x.toModel.unpack.compare y.toModel.unpack == some .eq) := rfl
  rw [h, beq_iff_eq, compare_eq_some_iff]
  constructor
  · rintro ⟨a, b, ha, hb, hab⟩
    rw [(cmp_eq_eq_iff a b).mp hab] at ha
    exact ⟨b, ha, hb⟩
  · rintro ⟨a, hx, hy⟩
    exact ⟨a, a, hx, hy, cmp_self_eq_eq a⟩

theorem atMost_self_iff {x : Float} : Scalar.atMost x x = true ↔ ∃ a, place x = some a := by
  rw [atMost_iff]
  constructor
  · rintro ⟨a, -, ha, -⟩
    exact ⟨a, ha⟩
  · rintro ⟨a, ha⟩
    exact ⟨a, a, ha, ha, le_refl a⟩

instance : Scalar.Ordered Float where
  less_irrefl x := by
    refine Bool.eq_false_iff.mpr fun h => ?_
    obtain ⟨a, b, ha, hb, hab⟩ := less_iff.mp h
    exact hab.ne (Option.some.inj (ha.symm.trans hb))
  less_trans h h' := by
    obtain ⟨a, b, ha, hb, hab⟩ := less_iff.mp h
    obtain ⟨b', c, hb', hc, hbc⟩ := less_iff.mp h'
    obtain rfl := Option.some.inj (hb.symm.trans hb')
    exact less_iff.mpr ⟨a, c, ha, hc, hab.trans hbc⟩
  less_of_atMost_of_less h h' := by
    obtain ⟨a, b, ha, hb, hab⟩ := atMost_iff.mp h
    obtain ⟨b', c, hb', hc, hbc⟩ := less_iff.mp h'
    obtain rfl := Option.some.inj (hb.symm.trans hb')
    exact less_iff.mpr ⟨a, c, ha, hc, hab.trans_lt hbc⟩
  self_of_less h := by
    obtain ⟨-, b, -, hb, -⟩ := less_iff.mp h
    exact atMost_self_iff.mpr ⟨b, hb⟩
  self_of_atMost h := by
    obtain ⟨a, b, ha, hb, -⟩ := atMost_iff.mp h
    exact ⟨atMost_self_iff.mpr ⟨a, ha⟩, atMost_self_iff.mpr ⟨b, hb⟩⟩
  less_of_not_atMost hx hy h := by
    obtain ⟨a, ha⟩ := atMost_self_iff.mp hx
    obtain ⟨b, hb⟩ := atMost_self_iff.mp hy
    refine less_iff.mpr ⟨b, a, hb, ha, not_le.mp fun hab => ?_⟩
    exact Bool.eq_false_iff.mp h (atMost_iff.mpr ⟨a, b, ha, hb, hab⟩)

end Binary64

end PivotedLU
