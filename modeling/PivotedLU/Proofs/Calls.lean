import PivotedLU.Proofs.Elimination.Frame
import PivotedLU.Proofs.Flat.Checks
import PivotedLU.Proofs.Stored.Checks

/-!
# Calls that fail

Every operation that writes into a store checks all of its arguments before the first write, and
elimination writes into the matrix it consumes before anything else is written. So an error leaves
the store as it was, except that a matrix that turned out to be singular is spoiled.
-/

namespace PivotedLU

variable {α β γ : Type} {s t : Store α}

/-! ## Errors and the store -/

/-- An error leaves the store as it was, except for the cells of `consumed` when a matrix is
singular. -/
structure Careful (consumed : Nat → Nat → Prop) (s : Store α) (o : Result β × Store α) : Prop where
  unchanged : ∀ e : Error, o.1 = .error (.error e) → e.cause ≠ .singular → o.2 = s
  consumed : ∀ e : Error, o.1 = .error (.error e) → s.ChangedOnly consumed o.2

namespace Careful

variable {consumed : Nat → Nat → Prop}

theorem of_eq (consumed : Nat → Nat → Prop) {o : Result β × Store α} (h : o.2 = s) :
    Careful consumed s o :=
  ⟨fun _ _ _ => h, fun _ _ => h.symm ▸ .refl _ s⟩

theorem of_not_error {o : Result β × Store α} (h : ∀ e : Error, o.1 ≠ .error (.error e)) :
    Careful consumed s o :=
  ⟨fun e he => absurd he (h e), fun e he => absurd he (h e)⟩

theorem commit (consumed : Nat → Nat → Prop) (s t : Store α) (r : Except Fault (Store α)) :
    Careful consumed s (t.commit r) := by
  refine of_not_error fun e he => ?_
  cases r with
  | ok u => cases he
  | error f => cases he

theorem ofFaulty (consumed : Nat → Nat → Prop) (s t : Store α) (r : Except Fault β) :
    Careful consumed s (Result.ofFaulty r, t) := by
  refine of_not_error fun e he => ?_
  cases r with
  | ok v => cases he
  | error f => cases he

/-- Passing an error on changes its path only. -/
theorem within (frame : Frame) {f : Failure} (h : Careful consumed s ((.error f : Result β), t)) :
    Careful consumed s ((.error (f.within frame) : Result γ), t) := by
  cases f with
  | error e =>
      refine ⟨?_, ?_⟩
      · rintro _ ⟨⟩ hcause
        exact h.unchanged e rfl hcause
      · rintro _ ⟨⟩
        exact h.consumed e rfl
  | refused r => exact of_not_error fun _ he => by cases he
  | fault f => exact of_not_error fun _ he => by cases he

theorem mono {p q : Nat → Nat → Prop} {o : Result β × Store α} (h : Careful p s o)
    (hpq : ∀ b k, p b k → q b k) : Careful q s o :=
  ⟨h.unchanged, fun e he => (h.consumed e he).mono hpq⟩

theorem contents {o : Result β × Store α} {e : Error} {w : Window} (h : Careful consumed s o)
    (he : o.1 = .error (.error e)) (hout : ∀ b k, w.Covers b k → ¬ consumed b k) :
    w.contents o.2 = w.contents s :=
  Window.contents_of_changedOnly (h.consumed e he) hout

theorem cast {f : Failure} (h : Careful consumed s ((.error f : Result β), t)) :
    Careful consumed s ((.error f : Result γ), t) := by
  refine ⟨?_, ?_⟩
  · rintro e ⟨⟩
    exact h.unchanged e rfl
  · rintro e ⟨⟩
    exact h.consumed e rfl

end Careful

/-! ## Elimination -/

variable [Scalar α]

theorem Window.eliminate_careful (tol : α) (n : Nat) (w : Window) (s : Store α) :
    Careful (w.take (n * n)).Covers s (w.eliminate tol n s) := by
  unfold eliminate
  split
  next => exact .of_eq _ rfl
  next e he =>
    have hkept : s.ChangedOnly (w.take (n * n)).Covers e.state :=
      Kernel.decompose_keeps (w.cells_keeps (n * n) s) (.refl _ s) he
    split
    next => exact .of_not_error fun _ h => by cases h
    next =>
      split
      next => exact .of_not_error fun _ h => by cases h
      next => exact ⟨fun e he hcause => by cases he; exact absurd rfl hcause, fun _ _ => hkept⟩

/-! ## Stored matrices -/

namespace StoredMatrix

variable (tol : α) (m a dst : Option StoredMatrix) (s : Store α)

/-- The cells that factoring a square matrix in place may change. -/
def Consumed (m : Option StoredMatrix) (b k : Nat) : Prop :=
  ∃ a ∈ m, b = a.block ∧ k < a.rows * a.rows

theorem factorizeInPlace_careful : Careful (Consumed m) s (factorizeInPlace tol m s) := by
  unfold factorizeInPlace
  split
  next => exact .of_eq _ rfl
  next a ha =>
    obtain ⟨hm, -⟩ := ((Check.isSquare_gives m).within _).of_ok ha
    have helim := (a.window s).eliminate_careful tol a.rows s
    have hcells : ∀ b k, ((a.window s).take (a.rows * a.rows)).Covers b k → Consumed m b k := by
      rintro b k ⟨hblock, -, hlt⟩
      refine ⟨a, hm, hblock, ?_⟩
      simpa [window, Window.whole, Window.take] using hlt
    split
    next => exact .of_not_error fun _ h => by cases h
    next f t h =>
      rw [h] at helim
      exact (helim.within _).mono hcells

theorem determinantInPlace_careful : Careful (Consumed m) s (determinantInPlace tol m s) := by
  have hfactor := factorizeInPlace_careful tol m s
  unfold determinantInPlace
  split
  next f t h =>
    rw [h] at hfactor
    exact hfactor.within _
  next => exact .ofFaulty _ _ _ _

theorem inverseInPlace_careful : Careful (Consumed a) s (inverseInPlace tol a dst s) := by
  unfold inverseInPlace
  split
  next => exact .of_eq _ rfl
  next a' dst' hcheck =>
    obtain ⟨ha, -⟩ := (checkInverseInPlace_gives a dst s).of_ok hcheck
    have hfactor := factorizeInPlace_careful tol a s
    rw [ha] at hfactor ⊢
    split
    next f t h =>
      rw [h] at hfactor
      exact hfactor.within _
    next => exact .commit _ _ _ _

theorem inverseInPlace_output {e : Error} {d : StoredMatrix}
    (he : (inverseInPlace tol a (some d) s).1 = .error (.error e)) :
    (d.window s).contents (inverseInPlace tol a (some d) s).2 = (d.window s).contents s := by
  rcases checkInverseInPlace_gives a (some d) s with ⟨⟨a', d'⟩, -, ha, hd, -, -, hapart⟩ | ⟨e', hcheck⟩
  · cases hd
    refine (inverseInPlace_careful tol a (some d') s).contents he fun b k hcovers hconsumed => hapart ?_
    rw [ha] at hconsumed
    obtain ⟨_, ⟨⟩, hblock, -⟩ := hconsumed
    refine ⟨b, k, hcovers, hblock, Nat.zero_le k, ?_⟩
    obtain ⟨hblock', -, hlt⟩ := hcovers
    have hsame : a'.block = d'.block := hblock.symm.trans hblock'
    simpa [window, Window.whole, hsame] using hlt
  · rw [inverseInPlace, hcheck]

end StoredMatrix

/-! ## Flat buffers -/

namespace Flat

variable (name : Routine) (a ia : Option Window) (m : Int64) (s : Store α)

/-- The cells that factoring a block in place may change. -/
def Consumed (a : Option Window) (m : Int64) (b k : Nat) : Prop :=
  ∃ w ∈ a, (area w m).Covers b k

theorem eliminate_careful : Careful (Consumed a m) s (eliminate name a m s) := by
  rcases block_cases a m with ⟨e, he, -⟩ | ⟨n, w, rfl, hfits, rfl, hroom, -⟩
  · refine .of_eq _ ?_
    simp only [eliminate, Result.of, he, Result.within]
  · have helim := w.eliminate_careful 0 n s
    rw [eliminate_eq name hfits hroom]
    have hcells : ∀ b k, (w.take (n * n)).Covers b k → Consumed (some w) (Int64.ofNat n) b k := by
      intro b k hcovers
      exact ⟨w, rfl, (area_eq hfits w).symm ▸ hcovers⟩
    generalize w.eliminate 0 n s = o at helim ⊢
    obtain ⟨r, t⟩ := o
    cases r with
    | ok order => exact .of_not_error fun _ h => by cases h
    | error f => exact (helim.within _).mono hcells

theorem determinant_careful : Careful (Consumed a m) s (determinant a m s) := by
  have helim := eliminate_careful .flatDeterminant a m s
  unfold determinant
  split
  next f t h =>
    rw [h] at helim
    exact helim.cast
  next => exact .ofFaulty _ _ _ _

theorem inverse_careful : Careful (Consumed a m) s (inverse a ia m s) := by
  unfold inverse
  split
  next => exact .of_eq _ rfl
  next w x hcheck =>
    obtain ⟨ha, -⟩ := (checkInverse_gives a ia m).of_ok hcheck
    have helim := eliminate_careful .flatInverse a m s
    rw [ha] at helim ⊢
    split
    next f t h =>
      rw [h] at helim
      exact helim.cast
    next => exact .commit _ _ _ _

theorem inverse_output {e : Error} {x : Window}
    (he : (inverse a (some x) m s).1 = .error (.error e)) :
    (area x m).contents (inverse a (some x) m s).2 = (area x m).contents s := by
  rcases checkInverse_gives a (some x) m with ⟨⟨w, x'⟩, -, ha, hx, hapart⟩ | ⟨e', hcheck⟩
  · cases hx
    refine (inverse_careful a (some x') m s).contents he fun b k hcovers hconsumed => hapart ?_
    rw [ha] at hconsumed
    obtain ⟨_, ⟨⟩, hcovers'⟩ := hconsumed
    exact ⟨b, k, hcovers, hcovers'⟩
  · rw [inverse, hcheck]

end Flat

/-! ## All calls -/

/-- The operations that write into a store or read from it, with their arguments. -/
inductive Call (α : Type) where
  | set (m : StoredMatrix) (i j : Int64) (v : α)
  | transposeInPlace (m : Option StoredMatrix)
  | multiplyInto (dst a b : Option StoredMatrix)
  | solveInto (f : StoredFactors) (x b : Option Window)
  | inverseInto (f : StoredFactors) (dst : Option StoredMatrix)
  | inverseInPlace (tol : α) (a dst : Option StoredMatrix)
  | factorizeInPlace (tol : α) (m : Option StoredMatrix)
  | determinantInPlace (tol : α) (m : Option StoredMatrix)
  | flatDecompose (a : Option Window) (n : Int64)
  | flatSolve (a : Option Window) (p : Option RowOrder) (b : Option Window) (n : Int64)
  | flatInverse (a ia : Option Window) (n : Int64)
  | flatDeterminant (a : Option Window) (n : Int64)
  | flatTrace (a : Option Window) (n : Int64)
  | flatTranspose (a : Option Window) (n : Int64)
  | flatMultiply (x y r : Option Window) (n : Int64)

/-- The outcome without the value. -/
def forget (o : Result β × Store α) : Result Unit × Store α :=
  (o.1.map fun _ => (), o.2)

omit [Scalar α] in
theorem Careful.forget {consumed : Nat → Nat → Prop} {o : Result β × Store α}
    (h : Careful consumed s o) : Careful consumed s (forget o) := by
  obtain ⟨r, t⟩ := o
  cases r with
  | ok v => exact .of_not_error fun _ he => by cases he
  | error f => exact h.cast

namespace Call

/-- Performs a call; of its answer only the failure counts here. -/
def run : Call α → Store α → Result Unit × Store α
  | .set m i j v, s => m.set i j v s
  | .transposeInPlace m, s => StoredMatrix.transposeInPlace m s
  | .multiplyInto dst a b, s => StoredMatrix.multiplyInto dst a b s
  | .solveInto f x b, s => f.solveInto x b s
  | .inverseInto f dst, s => f.inverseInto dst s
  | .inverseInPlace tol a dst, s => StoredMatrix.inverseInPlace tol a dst s
  | .factorizeInPlace tol m, s => forget (StoredMatrix.factorizeInPlace tol m s)
  | .determinantInPlace tol m, s => forget (StoredMatrix.determinantInPlace tol m s)
  | .flatDecompose a n, s => forget (Flat.decompose a n s)
  | .flatSolve a p b n, s => forget (Flat.solve a p b n s, s)
  | .flatInverse a ia n, s => Flat.inverse a ia n s
  | .flatDeterminant a n, s => forget (Flat.determinant a n s)
  | .flatTrace a n, s => forget (Flat.trace a n s, s)
  | .flatTranspose a n, s => Flat.transpose a n s
  | .flatMultiply x y r n, s => Flat.multiply x y r n s

/-- The cells of the matrix that a call factors in place. -/
def Consumed : Call α → Nat → Nat → Prop
  | .inverseInPlace _ m _ | .factorizeInPlace _ m | .determinantInPlace _ m => StoredMatrix.Consumed m
  | .flatDecompose a n | .flatInverse a _ n | .flatDeterminant a n => Flat.Consumed a n
  | _ => fun _ _ => False

/-- Where a call that factors in place writes its result besides. -/
def outputs (s : Store α) : Call α → List Window
  | .inverseInPlace _ _ dst => (dst.map (·.window s)).toList
  | .flatInverse _ ia n => (ia.map (Flat.area · n)).toList
  | _ => []

theorem run_careful (c : Call α) (s : Store α) : Careful c.Consumed s (c.run s) := by
  cases c with
  | inverseInPlace tol a dst => exact StoredMatrix.inverseInPlace_careful tol a dst s
  | factorizeInPlace tol m => exact (StoredMatrix.factorizeInPlace_careful tol m s).forget
  | determinantInPlace tol m => exact (StoredMatrix.determinantInPlace_careful tol m s).forget
  | flatDecompose a n => exact (Flat.eliminate_careful .flatDecompose a n s).forget
  | flatInverse a ia n => exact Flat.inverse_careful a ia n s
  | flatDeterminant a n => exact (Flat.determinant_careful a n s).forget
  | flatSolve a p b n => exact .of_eq _ rfl
  | flatTrace a n => exact .of_eq _ rfl
  | set | transposeInPlace | multiplyInto | solveInto | inverseInto | flatTranspose | flatMultiply =>
      -- One check comes before the only write, which cannot give an error of the domain.
      dsimp only [run, StoredMatrix.set, StoredMatrix.transposeInPlace, StoredMatrix.multiplyInto,
        StoredFactors.solveInto, StoredFactors.inverseInto, Flat.transpose, Flat.multiply]
      split
      · exact .of_eq _ rfl
      · exact .commit _ _ _ _

theorem outputs_kept (c : Call α) (s : Store α) {e : Error} (h : (c.run s).1 = .error (.error e))
    {w : Window} (hw : w ∈ c.outputs s) : w.contents (c.run s).2 = w.contents s := by
  cases c with
  | inverseInPlace tol a dst =>
      cases dst with
      | none => cases hw
      | some d =>
          cases List.mem_singleton.mp hw
          exact StoredMatrix.inverseInPlace_output tol a s h
  | flatInverse a ia n =>
      cases ia with
      | none => cases hw
      | some x =>
          cases List.mem_singleton.mp hw
          exact Flat.inverse_output a n s h
  | _ => cases hw

/-- A call that returns an error leaves every cell as it was, unless the error says that a matrix is
singular; then only the cells of that matrix may differ, and an output beside it is as it was. -/
theorem error_keeps_store (c : Call α) (s : Store α) {e : Error}
    (h : (c.run s).1 = .error (.error e)) :
    (e.cause ≠ .singular → (c.run s).2 = s) ∧ s.ChangedOnly c.Consumed (c.run s).2 ∧
      ∀ w ∈ c.outputs s, w.contents (c.run s).2 = w.contents s :=
  ⟨(c.run_careful s).unchanged e h, (c.run_careful s).consumed e h, fun _ hw => c.outputs_kept s h hw⟩

/-- The first column is cleared before the second one turns out to have no pivot. -/
theorem error_keeps_store_second_column :
    ((flatInverse (some ⟨0, 1, 6⟩) (some ⟨0, 5, 4⟩) 2).run
      (⟨#[#[9, 2, 4, 1, 2, 5, 6, 7, 8]]⟩ : Store Float)).1 =
        .error (.error ⟨[.routine .flatInverse, .column 1], .singular⟩) ∧
    ((flatInverse (some ⟨0, 1, 6⟩) (some ⟨0, 5, 4⟩) 2).run
      (⟨#[#[9, 2, 4, 1, 2, 5, 6, 7, 8]]⟩ : Store Float)).2.blocks =
        #[#[9, 2, 4, 0.5, 0, 5, 6, 7, 8]] ∧
    (⟨#[#[9, 2, 4, 1, 2, 5, 6, 7, 8]]⟩ : Store Float).ChangedOnly
      (Flat.Consumed (some ⟨0, 1, 6⟩) 2)
      ((flatInverse (some ⟨0, 1, 6⟩) (some ⟨0, 5, 4⟩) 2).run
        (⟨#[#[9, 2, 4, 1, 2, 5, 6, 7, 8]]⟩ : Store Float)).2 := by
  have h : ((flatInverse (some ⟨0, 1, 6⟩) (some ⟨0, 5, 4⟩) 2).run
      (⟨#[#[9, 2, 4, 1, 2, 5, 6, 7, 8]]⟩ : Store Float)).1 =
        .error (.error ⟨[.routine .flatInverse, .column 1], .singular⟩) := by
    decide +kernel
  obtain ⟨-, hconsumed, -⟩ := error_keeps_store _ _ h
  exact ⟨h, by decide +kernel, hconsumed⟩

end Call

end PivotedLU
