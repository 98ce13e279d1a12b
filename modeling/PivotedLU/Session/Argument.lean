import PivotedLU.Session.Basic

/-!
# Arguments of operations

Things are given by name or written out; what is written out gets cells of its own.
-/

namespace PivotedLU.Session

/-- A vector: not there, written out, by name, or a part of a named one. -/
inductive VectorArgument where
  | absent
  | fresh (cells : Array Float)
  | named (name : String)
  | part (name : String) (offset length : Int64)

/-- A row order: not there, written out, or by name. -/
inductive OrderArgument where
  | absent
  | fresh (entries : Array Int64)
  | named (name : String)

/-- A matrix: not there, by name, dense, the empty one, or known by shape and entries. -/
inductive MatrixArgument where
  | absent
  | named (name : String)
  | dense (shape : Shape) (data : Array Float) (strict : Bool)
  | empty
  | foreign (f : Foreign Float)

/-- The thing a name stands for. -/
def find {β : Type} (names : Session → Names β) (name : String) : Step β := do
  match (names (← get)).lookup name with
  | some b => return b
  | none => throw (.undefined name)

def VectorArgument.read : VectorArgument → Step (Option Window)
  | .absent => return none
  | .fresh cells => do
    let block ← alloc cells
    return some ⟨block, 0, cells.size⟩
  | .named name => find Session.buffers name
  | .part name offset length => do
    match ← find Session.buffers name with
    | some w => return some (← sound (w.part (← get).store offset length))
    | none =>
      if offset = 0 ∧ length = 0 then return none else fail (.fault .outOfBounds)

def OrderArgument.read : OrderArgument → Step (Option RowOrder)
  | .absent => return none
  | .fresh entries => return some ⟨entries⟩
  | .named name => return some (← find Session.orders name)

/-- The name under which a changed row order is stored again. -/
def OrderArgument.name : OrderArgument → Option String
  | .named name => some name
  | _ => none

def MatrixArgument.read : MatrixArgument → Step (Option Held)
  | .absent => return none
  | .named name => find Session.matrices name
  | .dense shape data strict => do
    let d ← value (Dense.ofData shape data strict)
    return some (.dense (← keep d))
  | .empty => return some (.dense (← keep .empty))
  | .foreign f => return some (.foreign f)

/-- The matrix as an operand. -/
def MatrixArgument.operand (m : MatrixArgument) : Step (Option (Operand Float)) := do
  let held ← m.read
  let s ← get
  return held.map (·.operand s.store)

/-- A matrix that must be dense if it is there. -/
def MatrixArgument.dense? (m : MatrixArgument) : Step (Option StoredMatrix) := do
  match ← m.read with
  | none => return none
  | some (.dense d) => return some d
  | some (.foreign _) => fail (.fault .missing)

/-- A matrix that must be there. -/
def needed {β : Type} : Option β → Step β
  | some b => return b
  | none => fail (.fault .missing)

/-- The settings in force after the given choices. -/
def settings (choices : List (Option Setting)) : Step Settings :=
  value (Settings.make choices)

end PivotedLU.Session
