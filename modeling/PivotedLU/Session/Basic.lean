import PivotedLU.Matrix.Residual
import PivotedLU.Settings
import PivotedLU.Stored.Matrix

/-!
# Sessions

Named matrices, factors, buffers and row orders on one store. Storing a thing again under its name
replaces it; two names may stand for the same cells.
-/

namespace PivotedLU

/-- Things by name; the first entry of a name counts. -/
abbrev Names (β : Type) := List (String × β)

namespace Names

variable {β : Type}

/-- Stores a thing under a name. -/
def put (names : Names β) (name : String) (b : β) : Names β :=
  (name, b) :: names.filter fun entry => entry.1 != name

end Names

/-- A matrix that a session holds: one in the store, or one known only by shape and entries. -/
inductive Held where
  | dense (m : StoredMatrix)
  | foreign (f : Foreign Float)

/-- The matrix as an operand, as it stands in a store. -/
def Held.operand (s : Store Float) : Held → Operand Float
  | .dense m => .dense (m.view s)
  | .foreign f => .foreign f

/-- The store and the names. Matrices and buffers may be held as not there. -/
structure Session where
  store : Store Float
  matrices : Names (Option Held)
  factors : Names StoredFactors
  buffers : Names (Option Window)
  orders : Names RowOrder

namespace Session

def empty : Session :=
  ⟨.empty, [], [], [], []⟩

/-- Why a session gives no answer: a name that stands for nothing, or the failure of an operation. -/
inductive Refused where
  | undefined (name : String)
  | failed (f : Failure)

/-- What an operation answers. -/
inductive Answer where
  | done
  | matrix (d : Option (Dense Float))
  | vector (v : Option (Array Float))
  | number (x : Float)
  | handedNumber (x : Handed Float)
  | integer (i : Int)
  | truth (b : Bool)
  | text (s : String)
  | handedText (s : Handed String)
  | shape (s : Shape)
  | handedResidual (r : Handed Residual)
  | settings (s : Settings)
  | factors (n : Nat) (rows : Array Int64) (swaps : Int64)
  | order (p : Option RowOrder)
  | rows (p : Array Int64)

/-- An argument after the operation. -/
inductive Seen where
  | matrix (d : Option (Dense Float))
  | vector (v : Option (Array Float))
  | order (p : Option RowOrder)

/-- The answer, and the arguments that the operation may have changed. -/
structure Reply where
  answer : Except Refused Answer
  seen : List Seen := []

/-- A step that reads or changes the session, or refuses. -/
abbrev Step := StateT Session (Except Refused)

/-! ## Steps -/

/-- Refuses with a failure. -/
def fail {β : Type} (f : Failure) : Step β :=
  throw (.failed f)

/-- The value of a result, or its failure. -/
def value {β : Type} : Result β → Step β
  | .ok b => return b
  | .error f => fail f

/-- The value of a computation that can only fault, or its fault. -/
def sound {β : Type} : Except Fault β → Step β
  | .ok b => return b
  | .error f => fail (.fault f)

/-- Adds a block to the store. -/
def alloc (cells : Array Float) : Step Nat := do
  let s ← get
  let (block, store) := s.store.alloc cells
  set { s with store }
  return block

/-- Runs an operation on the store. A fault ends the step; any other result is handed on. -/
def onStore {β : Type} (f : Store Float → Result β × Store Float) : Step (Result β) := do
  let s ← get
  match f s.store with
  | (.error (.fault e), _) => fail (.fault e)
  | (r, store) =>
    set { s with store }
    return r

/-- Keeps a dense matrix in the store. -/
def keep (d : Dense Float) : Step StoredMatrix := do
  let s ← get
  let (m, store) := s.store.keep d
  set { s with store }
  return m

/-- Stores a matrix under a name, if there is one. -/
def nameMatrix (name : Option String) (m : Option Held) : Step Unit :=
  match name with
  | none => return
  | some name => modify fun s => { s with matrices := s.matrices.put name m }

/-- Stores factors under a name, if there is one. -/
def nameFactors (name : Option String) (f : StoredFactors) : Step Unit :=
  match name with
  | none => return
  | some name => modify fun s => { s with factors := s.factors.put name f }

/-- Stores a buffer under a name, if there is one. -/
def nameBuffer (name : Option String) (w : Option Window) : Step Unit :=
  match name with
  | none => return
  | some name => modify fun s => { s with buffers := s.buffers.put name w }

/-- Stores a row order under a name, if there is one. -/
def nameOrder (name : Option String) (p : RowOrder) : Step Unit :=
  match name with
  | none => return
  | some name => modify fun s => { s with orders := s.orders.put name p }

/-! ## Answers -/

/-- An answer alone. -/
def reply (a : Answer) : Step Reply :=
  return ⟨.ok a, []⟩

/-- The answer made from a value, or the failure. -/
def ofResult {β : Type} (make : β → Answer) (r : Result β) : Except Refused Answer :=
  match r with
  | .ok b => .ok (make b)
  | .error f => .error (.failed f)

/-- A matrix that is kept under a name, or the failure. -/
def replyMatrix (name : Option String) (r : Result (Dense Float)) : Step Reply := do
  let d ← value r
  let m ← keep d
  nameMatrix name (some (.dense m))
  reply (.matrix (some d))

/-- A vector that is kept under a name, or the failure. -/
def replyVector (name : Option String) (r : Result (Array Float)) : Step Reply := do
  let v ← value r
  let block ← alloc v
  nameBuffer name (some ⟨block, 0, v.size⟩)
  reply (.vector (some v))

/-- The dense matrix as it stands. -/
def seeMatrix (m : Option StoredMatrix) : Step Seen := do
  let s ← get
  return .matrix (m.map (·.view s.store))

/-- The vector as it stands. -/
def seeVector (w : Option Window) : Step Seen := do
  let s ← get
  return .vector (w.map (·.contents s.store))

end Session

end PivotedLU
