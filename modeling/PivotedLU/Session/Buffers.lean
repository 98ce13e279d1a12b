import PivotedLU.Flat
import PivotedLU.Session.Operation

/-!
# Performing operations on buffers, kernels and row orders
-/

namespace PivotedLU.Session

/-- The cells of a vector argument. -/
def cellsOf (w : Option Window) : Cells (Store Float) Float :=
  (w.getD .empty).cells

/-- Runs a kernel that changes the store. -/
def runKernel (f : Store Float → Except Fault (Store Float)) : Step Unit := do
  let s ← get
  let store ← sound (f s.store)
  set { s with store }

/-- Performs an operation; a new thing is kept under `name`. -/
def FlatOperation.perform (name : Option String) : FlatOperation → Step Reply
  | .keep data => do
    let w ← data.read
    nameBuffer name w
    reply .done
  | .look a => do
    let a ← a.read
    let s ← get
    reply (.vector (a.map (·.contents s.store)))
  | .decompose a n => do
    let a ← a.read
    match ← onStore (Flat.decompose a n) with
    | .ok p =>
      nameOrder name p
      return ⟨.ok (.order (some p)), [← seeVector a]⟩
    | .error f => return ⟨.error (.failed f), [← seeVector a]⟩
  | .solve a p b n => do
    let a ← a.read
    let p ← p.read
    let b ← b.read
    replyVector name (Flat.solve a p b n (← get).store)
  | .inverse a ia n => do
    let a ← a.read
    let ia ← ia.read
    let r ← onStore (Flat.inverse a ia n)
    return ⟨ofResult (fun _ => .done) r, [← seeVector a, ← seeVector ia]⟩
  | .determinant a n => do
    let a ← a.read
    let r ← onStore (Flat.determinant a n)
    return ⟨ofResult .handedNumber (r.handed 0), [← seeVector a]⟩
  | .trace a n => do
    let a ← a.read
    reply (.handedNumber (← value ((Flat.trace a n (← get).store).handed 0)))
  | .transpose a n => do
    let a ← a.read
    let r ← onStore (Flat.transpose a n)
    return ⟨ofResult (fun _ => .done) r, [← seeVector a]⟩
  | .multiply r x y n => do
    let r ← r.read
    let x ← x.read
    let y ← y.read
    let result ← onStore (Flat.multiply x y r n)
    return ⟨ofResult (fun _ => .done) result, [← seeVector r]⟩
  | .overlaps a b => do
    let a ← a.read
    let b ← b.read
    reply (.truth ((a.getD .empty).overlaps (b.getD .empty)))

/-- Runs a kernel on the arguments as they are. -/
def KernelOperation.perform : KernelOperation → Step Reply
  | .decompose a p n tol => do
    let a ← a.read
    let order ← p.read
    let s ← get
    let e ← sound (Kernel.decompose (cellsOf a) n.toNatClampNeg (order.getD ⟨#[]⟩) tol s.store)
    set { s with store := e.state }
    nameOrder p.name e.order
    return ⟨.ok (.truth e.stopped.isNone),
      [← seeVector a, .order (order.map fun _ => e.order)]⟩
  | .degenerateColumn a n tol => do
    let a ← a.read
    let s ← get
    let column ← sound (Kernel.degenerateColumn (cellsOf a).read n.toNatClampNeg tol s.store)
    reply (.integer (column.elim (-1) Int.ofNat))
  | .solve x a p b n => do
    let x ← x.read
    let a ← a.read
    let p ← p.read
    let b ← b.read
    runKernel (Kernel.solve (cellsOf a).read (p.getD ⟨#[]⟩) (cellsOf b).read n.toNatClampNeg
      (cellsOf x))
    return ⟨.ok .done, [← seeVector x]⟩
  | .invert ia a p n => do
    let ia ← ia.read
    let a ← a.read
    let p ← p.read
    runKernel (Kernel.invert (cellsOf a).read (p.getD ⟨#[]⟩) n.toNatClampNeg (cellsOf ia))
    return ⟨.ok .done, [← seeVector ia]⟩
  | .determinant a p n => do
    let a ← a.read
    let p ← p.read
    let s ← get
    reply (.number
      (← sound (Kernel.determinant (cellsOf a).read (p.getD ⟨#[]⟩) n.toNatClampNeg s.store)))
  | .trace a n => do
    let a ← a.read
    let s ← get
    reply (.number (← sound (Kernel.trace (cellsOf a).read n.toNatClampNeg s.store)))
  | .transpose a n => do
    let a ← a.read
    runKernel (Kernel.transpose (cellsOf a) n.toNatClampNeg)
    return ⟨.ok .done, [← seeVector a]⟩
  | .multiply r x y n => do
    let r ← r.read
    let x ← x.read
    let y ← y.read
    runKernel (Kernel.multiply (cellsOf x).read (cellsOf y).read (cellsOf r) n.toNatClampNeg)
    return ⟨.ok .done, [← seeVector r]⟩

/-- Performs an operation on a row order; a new one is kept under `name`. -/
def OrderOperation.perform (name : Option String) : OrderOperation → Step Reply
  | .make n => do
    let p ← sound (RowOrder.make n)
    nameOrder name p
    reply (.order (some p))
  | .reset p => do
    let order ← p.read
    let fresh := order.map RowOrder.reset
    nameOrder p.name (fresh.getD ⟨#[]⟩)
    reply (.order fresh)
  | .dimension p => do
    let p ← p.read
    reply (.integer ((p.getD ⟨#[]⟩).dimension).toInt)
  | .swaps p => do
    let p ← p.read
    reply (.integer (← sound (p.getD ⟨#[]⟩).swaps).toInt)
  | .sign p => do
    let p ← p.read
    reply (.number (← sound (p.getD ⟨#[]⟩).sign))
  | .rows p => do
    let p ← p.read
    reply (.rows (← sound (p.getD ⟨#[]⟩).rows))
  | .isValid p => do
    let p ← p.read
    reply (.truth (← sound (p.getD ⟨#[]⟩).isValid))

end PivotedLU.Session
