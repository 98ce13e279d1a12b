import PivotedLU.Fault

/-!
# Cells

Checked access to numbered cells inside a state. The kernels are written against it, so that one
definition serves a private array and a window of a shared store.
-/

namespace PivotedLU

variable {σ α : Type}

/-- Reads a numbered cell of a state. -/
abbrev Reader (σ α : Type) := σ → Nat → Except Fault α

/-- A run of cells that can be read and written. -/
structure Cells (σ α : Type) where
  read : Reader σ α
  write : σ → Nat → α → Except Fault σ

/-- The cells of an array that is itself the state. -/
@[inline] def Cells.array : Cells (Array α) α where
  read a i := if h : i < a.size then .ok a[i] else .error .outOfBounds
  write a i v := if h : i < a.size then .ok (a.set i v h) else .error .outOfBounds

/-- An array that no write touches. -/
@[inline] def Reader.fixed (a : Array α) : Reader σ α :=
  fun _ i => if h : i < a.size then .ok a[i] else .error .outOfBounds

/-- A cell named by a signed position. -/
@[inline] def Reader.at (r : Reader σ α) (s : σ) (i : Int64) : Except Fault α :=
  if i < 0 then .error .outOfBounds else r s i.toNatClampNeg

end PivotedLU
