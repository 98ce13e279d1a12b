import PivotedLU.Cells
import PivotedLU.Error

/-!
# Stores

Blocks of cells that several holders share, and windows on parts of them.
-/

namespace PivotedLU

variable {α τ : Type}

/-- Numbered blocks of cells. -/
structure Store (α : Type) where
  blocks : Array (Array α)

/-- Consecutive cells of one block. -/
structure Window where
  block : Nat
  offset : Nat
  length : Nat
  deriving DecidableEq, Repr

namespace Store

def empty : Store α :=
  ⟨#[]⟩

/-- The cells of a block. -/
def block (s : Store α) (b : Nat) : Array α :=
  s.blocks.getD b #[]

/-- Adds a block; gives its number. -/
def alloc (s : Store α) (cells : Array α) : Nat × Store α :=
  (s.blocks.size, ⟨s.blocks.push cells⟩)

/-- Reads cell `i` of block `b`. -/
@[inline] def read (s : Store α) (b i : Nat) : Except Fault α :=
  if hb : b < s.blocks.size then
    if hi : i < s.blocks[b].size then .ok s.blocks[b][i] else .error .outOfBounds
  else .error .outOfBounds

/-- Writes cell `i` of block `b`. -/
@[inline] def write (s : Store α) (b i : Nat) (v : α) : Except Fault (Store α) :=
  if hb : b < s.blocks.size then
    if i < s.blocks[b].size then .ok ⟨s.blocks.modify b (·.setIfInBounds i v)⟩
    else .error .outOfBounds
  else .error .outOfBounds

/-- Keeps the new store, or the old one when the computation faulted. -/
def commit (s : Store α) : Except Fault (Store α) → Result Unit × Store α
  | .ok t => (.ok (), t)
  | .error f => (.error (.fault f), s)

end Store

namespace Window

/-- The window without cells. -/
def empty : Window :=
  ⟨0, 0, 0⟩

/-- The window on a whole block. -/
def whole (s : Store α) (b : Nat) : Window :=
  ⟨b, 0, (s.block b).size⟩

/-- The first cells of a window. -/
def take (w : Window) (length : Nat) : Window :=
  { w with length }

/-- The cells seen through a window. -/
@[inline] def cells (w : Window) : Cells (Store α) α where
  read s i := if i < w.length then s.read w.block (w.offset + i) else .error .outOfBounds
  write s i v := if i < w.length then s.write w.block (w.offset + i) v else .error .outOfBounds

/-- Reads a window of a store that does not change meanwhile. -/
@[inline] def reader (w : Window) (s : Store α) : Reader τ α :=
  fun _ i => w.cells.read s i

/-- What a window shows. -/
def contents (w : Window) (s : Store α) : Array α :=
  (s.block w.block).extract w.offset (w.offset + w.length)

/-- A part of a window; it may reach beyond the window, up to the end of the block. -/
def part (w : Window) (s : Store α) (offset length : Int64) : Except Fault Window :=
  if 0 ≤ offset ∧ 0 ≤ length ∧
      w.offset + offset.toNatClampNeg + length.toNatClampNeg ≤ (s.block w.block).size then
    .ok ⟨w.block, w.offset + offset.toNatClampNeg, length.toNatClampNeg⟩
  else .error .outOfBounds

/-- Whether two windows have a cell in common. -/
def overlaps (a b : Window) : Bool :=
  a.length != 0 && b.length != 0 && a.block == b.block &&
    decide (a.offset < b.offset + b.length) && decide (b.offset < a.offset + a.length)

/-- No input has a cell in common with the output. -/
def noAlias (out : Window) (inputs : List Window) : Result Unit :=
  if inputs.any out.overlaps then
    Result.within (.check .noAlias) (.fail .aliasedOutput)
  else .ok ()

end Window

end PivotedLU
