import PivotedLU.Flat
import PivotedLU.Proofs.Matrix.View
import PivotedLU.Proofs.Result
import PivotedLU.Proofs.RowOrder
import PivotedLU.Proofs.Store

/-!
# Checks of flat buffers

What the checks accept, in exact numbers: the dimension is positive, its square is a signed 64-bit
number, and every buffer has that many cells. The words they compute with cannot wrap around before
this is known.
-/

namespace PivotedLU

variable {n k : Nat} {w x y v : Window}

/-! ## Room for a block -/

namespace Check

theorem holdsSquare_of_isValid {n : Int64} (h : (⟨n, n⟩ : Shape).isValid = true) (k : Nat) :
    holdsSquare (some k) n =
      if (k : Int) < (n * n).toInt then tag .flatSquare (.fail .dimensionMismatch) else .ok () := by
  simp only [Shape.isValid, Bool.and_eq_true, decide_eq_true_eq] at h
  obtain ⟨⟨hpos, -⟩, hmax⟩ := h
  rw [holdsSquare, if_neg (not_or.mpr ⟨Int64.not_le.mpr hpos, Int64.not_lt.mpr hmax⟩)]

theorem holdsSquare_eq (hfits : Fits n n) (hroom : n * n ≤ k) :
    holdsSquare (some k) (Int64.ofNat n) = .ok () := by
  rw [holdsSquare_of_isValid hfits.isValid, ← Int64.ofNat_mul,
    Int64.toInt_ofNat_of_lt hfits.size_lt]
  exact if_neg (Int.not_lt.mpr (Int.ofNat_le.mpr hroom))

/-- A buffer is accepted or rejected, and when it is accepted there is room in it. -/
theorem holdsSquare_cases (length : Option Nat) (m : Int64) :
    (holdsSquare length m).Rejected ∨
      ∃ n k, m = Int64.ofNat n ∧ Fits n n ∧ length = some k ∧ n * n ≤ k := by
  by_cases hvalid : (⟨m, m⟩ : Shape).isValid = true
  · obtain ⟨n, c, hfits, hshape⟩ := Shape.exists_fits hvalid
    obtain ⟨rfl, hc⟩ := Shape.mk.inj hshape
    obtain rfl := (ofNat_inj hfits.rows_lt hfits.cols_lt).mp hc
    cases length with
    | none =>
        left
        rw [holdsSquare]
        split <;> exact (Result.rejected_fail (by simp)).within _
    | some k =>
        rcases Nat.lt_or_ge k (n * n) with hlt | hge
        · left
          rw [holdsSquare_of_isValid hvalid, ← Int64.ofNat_mul,
            Int64.toInt_ofNat_of_lt hfits.size_lt, if_pos (Int.ofNat_lt.mpr hlt)]
          exact (Result.rejected_fail (by simp)).within _
        · exact .inr ⟨n, k, rfl, hfits, rfl, hge⟩
  · left
    have hbad : m ≤ 0 ∨ Int64.maxValue / m < m := by
      simp only [Shape.isValid, Bool.and_eq_true, decide_eq_true_eq, not_and] at hvalid
      rcases Int64.lt_or_le 0 m with hpos | hneg
      · exact .inr (Int64.not_le.mp (hvalid ⟨hpos, hpos⟩))
      · exact .inl hneg
    rw [holdsSquare.eq_def, if_pos hbad]
    exact (Result.rejected_fail (by simp)).within _

theorem exists_of_holdsSquare {m : Int64} (h : holdsSquare (some k) m = .ok ()) :
    ∃ n, m = Int64.ofNat n ∧ Fits n n ∧ n * n ≤ k := by
  rcases holdsSquare_cases (some k) m with ⟨e, he, -⟩ | ⟨n, _, hm, hfits, ⟨⟩, hroom⟩
  · rw [he] at h
    cases h
  · exact ⟨n, hm, hfits, hroom⟩

theorem le_of_holdsSquare (hfits : Fits n n) (h : holdsSquare (some k) (Int64.ofNat n) = .ok ()) :
    n * n ≤ k := by
  obtain ⟨n', hn, hfits', hroom⟩ := exists_of_holdsSquare h
  obtain rfl := (ofNat_inj hfits.rows_lt hfits'.rows_lt).mp hn
  exact hroom

end Check

namespace Flat

/-- The dimension is positive, its exact square is a signed 64-bit number, and the window is there
and has that many cells. -/
structure Room (m : Int64) (w : Option Window) : Prop where
  pos : 1 ≤ m.toInt
  square_le : m.toInt * m.toInt ≤ Int64.maxValue.toInt
  cells : ∃ v ∈ w, m.toInt * m.toInt ≤ v.length

theorem room_ofNat (hfits : Fits n n) (hroom : n * n ≤ w.length) : Room (Int64.ofNat n) (some w) := by
  have hn : (Int64.ofNat n).toInt = n := Int64.toInt_ofNat_of_lt hfits.rows_lt
  have hmax : Int64.maxValue.toInt = ((2 ^ 63 - 1 : Nat) : Int) := rfl
  have hlt := hfits.size_lt
  refine ⟨?_, ?_, w, rfl, ?_⟩
  · rw [hn]
    exact Int.ofNat_le.mpr hfits.rows_pos
  · rw [hn, hmax, ← Int.natCast_mul]
    exact Int.ofNat_le.mpr (by omega)
  · rw [hn, ← Int.natCast_mul]
    exact Int.ofNat_le.mpr hroom

theorem Room.exists_ofNat {m : Int64} {w : Option Window} (h : Room m w) :
    ∃ n v, m = Int64.ofNat n ∧ Fits n n ∧ w = some v ∧ n * n ≤ v.length := by
  obtain ⟨hpos, hsquare, v, hv, hroom⟩ := h
  have hnonneg : 0 ≤ m := Int64.le_iff_toInt_le.mpr (Int.le_trans (by decide) hpos)
  obtain ⟨n, hn, rfl⟩ := PivotedLU.exists_ofNat hnonneg
  have hmax : Int64.maxValue.toInt = ((2 ^ 63 - 1 : Nat) : Int) := rfl
  rw [Int64.toInt_ofNat_of_lt hn] at hpos hsquare hroom
  rw [hmax, ← Int.natCast_mul, Int.ofNat_le] at hsquare
  rw [← Int.natCast_mul, Int.ofNat_le] at hroom
  have hpos : 1 ≤ n := Int.ofNat_le.mp hpos
  exact ⟨n, v, rfl, ⟨hpos, hpos, by omega⟩, hv, hroom⟩

theorem Room.exists_window {w : Option Window} (h : Room (Int64.ofNat n) w) (hfits : Fits n n) :
    ∃ v, w = some v ∧ n * n ≤ v.length := by
  obtain ⟨k, v, hk, hfits', hv, hroom⟩ := h.exists_ofNat
  obtain rfl := (ofNat_inj hfits.rows_lt hfits'.rows_lt).mp hk
  exact ⟨v, hv, hroom⟩

theorem block_eq (hfits : Fits n n) (hroom : n * n ≤ w.length) :
    block (some w) (Int64.ofNat n) = .ok w := by
  simp only [block, Option.map_some, Check.holdsSquare_eq hfits hroom, bind, Except.bind]
  rfl

theorem area_eq (hfits : Fits n n) (w : Window) : area w (Int64.ofNat n) = w.take (n * n) := by
  rw [area, ← Int64.ofNat_mul, Int64.toNatClampNeg_ofNat_of_lt hfits.size_lt]

theorem block_rejected {m : Int64} {w : Option Window} (h : ¬ Room m w) : (block w m).Rejected := by
  rcases Check.holdsSquare_cases (w.map (·.length)) m with hrejected | ⟨n, k, rfl, hfits, hw, hk⟩
  · exact hrejected.bind _
  · obtain ⟨v, rfl, rfl⟩ := Option.map_eq_some_iff.mp hw
    exact absurd (room_ofNat hfits hk) h

theorem block_cases (a : Option Window) (m : Int64) : (block a m).Rejected ∨
    ∃ n w, m = Int64.ofNat n ∧ Fits n n ∧ a = some w ∧ n * n ≤ w.length ∧ block a m = .ok w := by
  by_cases h : Room m a
  · obtain ⟨n, w, rfl, hfits, rfl, hroom⟩ := h.exists_ofNat
    exact .inr ⟨n, w, rfl, hfits, rfl, hroom, block_eq hfits hroom⟩
  · exact .inl (block_rejected h)

theorem eliminate_eq {α : Type} [Scalar α] (name : Routine) (hfits : Fits n n)
    (hroom : n * n ≤ w.length) (s : Store α) : eliminate name (some w) (Int64.ofNat n) s =
      (Result.within (.routine name) (w.eliminate 0 n s).1, (w.eliminate 0 n s).2) := by
  simp only [eliminate, block_eq hfits hroom, Result.of, Result.within,
    Int64.toNatClampNeg_ofNat_of_lt hfits.rows_lt]
  obtain ⟨r, t⟩ := w.eliminate 0 n s
  cases r with
  | ok order => rfl
  | error failure => rfl

theorem eliminate_rejected {α : Type} [Scalar α] (name : Routine) {m : Int64} {a : Option Window}
    (h : ¬ Room m a) (s : Store α) :
    ∃ e : Error, eliminate name a m s = (.error (.error e), s) ∧ e.cause ≠ .singular := by
  obtain ⟨e, he, hcause⟩ := (block_rejected h).within (.routine name)
  refine ⟨e, ?_, hcause⟩
  simp only [eliminate, Result.of, he]

/-! ## Several buffers -/

/-- The blocks at the start of two windows have no cell in common. -/
def Apart (m : Int64) (v w : Option Window) : Prop :=
  ∀ p ∈ v, ∀ q ∈ w, ¬ (area p m).Shares (area q m)

theorem apart_some {m : Int64} :
    Apart m (some v) (some w) ↔ ¬ (area v m).Shares (area w m) := by
  simp [Apart]

theorem checkMultiply_rejected {m : Int64} {x y r : Option Window}
    (h : ¬ (Room m x ∧ Room m y ∧ Room m r)) : (checkMultiply x y r m).Rejected := by
  refine Result.Rejected.within _ ?_
  by_cases hx : Room m x
  · obtain ⟨n, u, rfl, hfits, rfl, hu⟩ := hx.exists_ofNat
    rw [block_eq hfits hu]
    by_cases hy : Room (Int64.ofNat n) y
    · have hr : ¬ Room (Int64.ofNat n) r := fun hr => h ⟨hx, hy, hr⟩
      obtain ⟨v, rfl, hv⟩ := hy.exists_window hfits
      rw [block_eq hfits hv]
      exact (block_rejected hr).bind _
    · exact (block_rejected hy).bind _
  · exact (block_rejected hx).bind _

section

variable {r : Window} (hfits : Fits n n) (hx : n * n ≤ x.length) (hy : n * n ≤ y.length)
  (hr : n * n ≤ r.length)

include hfits hx hy hr

theorem checkMultiply_eq : checkMultiply (some x) (some y) (some r) (Int64.ofNat n) =
    Result.of .flatMultiply ((area r (Int64.ofNat n)).noAlias
      [area x (Int64.ofNat n), area y (Int64.ofNat n)] >>= fun _ => .ok (x, y, r)) := by
  rw [checkMultiply, block_eq hfits hx, block_eq hfits hy, block_eq hfits hr]
  rfl

theorem checkMultiply_apart (h : ¬ (area r (Int64.ofNat n)).Shares (area x (Int64.ofNat n)))
    (h' : ¬ (area r (Int64.ofNat n)).Shares (area y (Int64.ofNat n))) :
    checkMultiply (some x) (some y) (some r) (Int64.ofNat n) = .ok (x, y, r) := by
  rw [checkMultiply_eq hfits hx hy hr, Window.noAlias_of_apart (by simp [h, h'])]
  rfl

theorem checkMultiply_shares (h : (area r (Int64.ofNat n)).Shares (area x (Int64.ofNat n)) ∨
    (area r (Int64.ofNat n)).Shares (area y (Int64.ofNat n))) :
    checkMultiply (some x) (some y) (some r) (Int64.ofNat n) =
      .error (.error ⟨[.routine .flatMultiply, .check .noAlias], .aliasedOutput⟩) := by
  rw [checkMultiply_eq hfits hx hy hr]
  rcases h with h | h
  · rw [Window.noAlias_of_shares (by simp) h]
    rfl
  · rw [Window.noAlias_of_shares (by simp) h]
    rfl

end

theorem checkInverse_rejected {m : Int64} {a ia : Option Window} (h : ¬ (Room m a ∧ Room m ia)) :
    (checkInverse a ia m).Rejected := by
  refine Result.Rejected.within _ ?_
  by_cases ha : Room m a
  · have hia : ¬ Room m ia := fun hia => h ⟨ha, hia⟩
    obtain ⟨n, u, rfl, hfits, rfl, hu⟩ := ha.exists_ofNat
    rw [block_eq hfits hu]
    exact (block_rejected hia).bind _
  · exact (block_rejected ha).bind _

section

variable (hfits : Fits n n) (hw : n * n ≤ w.length) (hx : n * n ≤ x.length)

include hfits hw hx

theorem checkInverse_eq : checkInverse (some w) (some x) (Int64.ofNat n) =
    Result.of .flatInverse ((area x (Int64.ofNat n)).noAlias [area w (Int64.ofNat n)] >>=
      fun _ => .ok (w, x)) := by
  rw [checkInverse, block_eq hfits hw, block_eq hfits hx]
  rfl

theorem checkInverse_apart (h : ¬ (area x (Int64.ofNat n)).Shares (area w (Int64.ofNat n))) :
    checkInverse (some w) (some x) (Int64.ofNat n) = .ok (w, x) := by
  rw [checkInverse_eq hfits hw hx, Window.noAlias_of_apart (by simpa using h)]
  rfl

theorem checkInverse_shares (h : (area x (Int64.ofNat n)).Shares (area w (Int64.ofNat n))) :
    checkInverse (some w) (some x) (Int64.ofNat n) =
      .error (.error ⟨[.routine .flatInverse, .check .noAlias], .aliasedOutput⟩) := by
  rw [checkInverse_eq hfits hw hx, Window.noAlias_of_shares (List.mem_singleton.mpr rfl) h]
  rfl

end

theorem checkInverse_gives (a ia : Option Window) (m : Int64) :
    (checkInverse a ia m).Gives fun c => a = some c.1 ∧ ia = some c.2 ∧
      ¬ (area c.2 m).Shares (area c.1 m) := by
  by_cases hroom : Room m a ∧ Room m ia
  · obtain ⟨n, w, rfl, hfits, rfl, hw⟩ := hroom.1.exists_ofNat
    obtain ⟨x, rfl, hx⟩ := hroom.2.exists_window hfits
    by_cases h : (area x (Int64.ofNat n)).Shares (area w (Int64.ofNat n))
    · exact .inr ⟨_, checkInverse_shares hfits hw hx h⟩
    · rw [checkInverse_apart hfits hw hx h]
      exact Result.gives_ok ⟨rfl, rfl, h⟩
  · obtain ⟨e, he, -⟩ := checkInverse_rejected hroom
    exact .inr ⟨e, he⟩

/-! ## Factors, row order and right-hand side -/

/-- There is room for the factors, the record belongs to their dimension and is a valid one, and the
right-hand side is long enough. -/
structure Solvable (m : Int64) (a : Option Window) (p : Option RowOrder) (b : Option Window) :
    Prop where
  room : Room m a
  order : ∃ q ∈ p, (q.entries.size : Int) = m.toInt + 1 ∧ q.isValid = .ok true
  rhs : ∃ v ∈ b, m.toInt ≤ v.length

theorem toInt_succ (hfits : Fits n n) : (Int64.ofNat n + 1).toInt = ((n + 1 : Nat) : Int) := by
  have hn := hfits.double_lt
  have hpos := hfits.rows_pos
  have hsucc : Int64.ofNat n + 1 = Int64.ofNat (n + 1) := (Int64.ofNat_add n 1).symm
  rw [hsucc, Int64.toInt_ofNat_of_lt (by omega)]

theorem checkSolve_eq {p : RowOrder} (hfits : Fits n n) (hw : n * n ≤ w.length)
    (hsize : p.entries.size = n + 1) (hvalid : p.isValid = .ok true) (hv : n ≤ v.length) :
    checkSolve (some w) (some p) (some v) (Int64.ofNat n) = .ok (w, p, v) := by
  have hlength : ¬ (v.length : Int) < (Int64.ofNat n).toInt := by
    rw [Int64.toInt_ofNat_of_lt hfits.rows_lt]
    exact Int.not_lt.mpr (Int.ofNat_le.mpr hv)
  simp only [checkSolve, block_eq hfits hw, Option.getD_some, hsize, toInt_succ hfits, ne_eq,
    not_true_eq_false, if_false, hvalid, Result.ofFaulty, Bool.not_true, Bool.false_eq_true, hlength,
    bind, Except.bind]
  rfl

theorem Solvable.exists_ofNat {m : Int64} {a b : Option Window} {p : Option RowOrder}
    (h : Solvable m a p b) : ∃ n w q v, m = Int64.ofNat n ∧ Fits n n ∧ a = some w ∧
      n * n ≤ w.length ∧ p = some q ∧ q.entries.size = n + 1 ∧ q.isValid = .ok true ∧ b = some v ∧
      n ≤ v.length := by
  obtain ⟨hroom, ⟨q, hq, hsize, hvalid⟩, v, hv, hlength⟩ := h
  obtain ⟨n, w, rfl, hfits, hw, hcells⟩ := hroom.exists_ofNat
  rw [Int64.toInt_ofNat_of_lt hfits.rows_lt] at hsize hlength
  exact ⟨n, w, q, v, rfl, hfits, hw, hcells, hq, Int.ofNat_inj.mp hsize, hvalid, hv,
    Int.ofNat_le.mp hlength⟩

theorem checkSolve_rejected {m : Int64} {a b : Option Window} {p : Option RowOrder}
    (h : ¬ Solvable m a p b) : (checkSolve a p b m).Rejected := by
  refine Result.Rejected.within _ ?_
  by_cases ha : Room m a
  · obtain ⟨n, w, rfl, hfits, rfl, hw⟩ := ha.exists_ofNat
    have hn : (Int64.ofNat n).toInt = n := Int64.toInt_ofNat_of_lt hfits.rows_lt
    rw [block_eq hfits hw, toInt_succ hfits, hn]
    show (if _ then _ else _ : Result _).Rejected
    split
    next => exact Result.rejected_fail (by simp)
    next hsize =>
      obtain ⟨valid, hvalid⟩ := (p.getD ⟨#[]⟩).isValid_ok
      rw [hvalid]
      cases valid with
      | false => exact Result.rejected_fail (by simp)
      | true =>
          cases b with
          | none => exact Result.rejected_fail (by simp)
          | some v =>
              show (if _ then _ else _ : Result _).Rejected
              split
              next => exact Result.rejected_fail (by simp)
              next hlength =>
                exfalso
                refine h ⟨ha, ?_, v, rfl, hn.symm ▸ Int.not_lt.mp hlength⟩
                cases p with
                | none => exact absurd hvalid (by decide)
                | some q => exact ⟨q, rfl, hn.symm ▸ Decidable.not_not.mp hsize, hvalid⟩
  · exact (block_rejected ha).bind _

end Flat

end PivotedLU
