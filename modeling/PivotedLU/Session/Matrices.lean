import PivotedLU.Literal
import PivotedLU.Matrix.Arithmetic
import PivotedLU.Matrix.Text
import PivotedLU.Session.Operation

/-!
# Performing operations on matrices
-/

namespace PivotedLU.Session

/-- The factors, described; kept under a name. -/
def replyFactors (name : Option String) (f : StoredFactors) (seen : List Seen) : Step Reply := do
  let rows ← sound f.order.rows
  let swaps ← sound f.order.swaps
  nameFactors name f
  return ⟨.ok (.factors f.n rows swaps), seen⟩

/-- A matrix computed from factors; kept under a name. -/
def ofFactors (name : Option String) (f : String)
    (make : Factors Float → Except Fault (Dense Float)) : Step Reply := do
  let f ← find Session.factors f
  replyMatrix name (Result.ofFaulty (make (f.view (← get).store)))

/-- Performs an operation; a new thing is kept under `name`. -/
def MatrixOperation.perform (name : Option String) : MatrixOperation → Step Reply
  | .zeros size => replyMatrix name (Dense.zeros size)
  | .identity n => replyMatrix name (PivotedLU.identity n)
  | .ofData size data choices => do
    let w ← data.read
    let choices ← Session.settings choices
    let cells := (w.getD .empty).contents (← get).store
    replyMatrix name (Dense.ofData size cells choices.strict)
  | .ofRows rows choices => do
    let windows ← rows.mapM VectorArgument.read
    let choices ← Session.settings choices
    let store := (← get).store
    replyMatrix name
      (Dense.ofRows (windows.map fun w => (w.getD .empty).contents store) choices.strict)
  | .parse literal choices => do
    let choices ← Session.settings choices
    replyMatrix name (parseRows literal choices.strict)
  | .keep m => do
    let held ← m.read
    nameMatrix name held
    reply .done
  | .settings choices => do
    reply (.settings (← Session.settings choices))
  | .look m => do
    let m ← m.dense?
    let s ← get
    reply (.matrix (m.map (·.view s.store)))
  | .shape m => do
    let m ← needed (← m.operand)
    reply (.shape m.shape)
  | .entry m i j => do
    let m ← needed (← m.operand)
    reply (.handedNumber (← value ((m.get i j).handed 0)))
  | .setEntry m i j v => do
    match ← needed (← m.read) with
    | .dense d =>
      let r ← onStore (d.set i j v)
      return ⟨ofResult (fun _ => .done) r, []⟩
    | .foreign _ => fail (.error ⟨[], .outOfRange⟩)
  | .copy m => do
    let m ← needed (← m.dense?)
    replyMatrix name (.ok (m.view (← get).store))
  | .entries m => do
    let m ← needed (← m.dense?)
    replyVector name (.ok (m.view (← get).store).data)
  | .text m => do
    let m ← needed (← m.dense?)
    reply (.text (← sound (m.view (← get).store).text))
  | .latex m places => do
    reply (.handedText (← value ((PivotedLU.latex (← m.operand) places).handed "")))
  | .trace m => do
    reply (.handedNumber (← value ((PivotedLU.trace (← m.operand)).handed 0)))
  | .transpose m => do
    replyMatrix name (PivotedLU.transpose (← m.operand))
  | .transposeInPlace m => do
    let m ← m.dense?
    let r ← onStore (StoredMatrix.transposeInPlace m)
    return ⟨ofResult (fun _ => .done) r, [← seeMatrix m]⟩
  | .multiply a b => do
    let a ← a.operand
    let b ← b.operand
    replyMatrix name (PivotedLU.multiply a b)
  | .multiplyInto dst a b => do
    let dst ← dst.dense?
    let a ← a.dense?
    let b ← b.dense?
    let r ← onStore (StoredMatrix.multiplyInto dst a b)
    return ⟨ofResult (fun _ => .done) r, [← seeMatrix dst]⟩
  | .allClose a b rtol atol => do
    let a ← a.operand
    let b ← b.operand
    reply (.truth (← value (PivotedLU.allClose a b rtol atol)))
  | .isIdentity m choices => do
    let m ← m.operand
    let choices ← Session.settings choices
    reply (.truth (← value (PivotedLU.isIdentity m choices)))
  | .identityResidual m => do
    reply (.handedResidual (← value ((PivotedLU.identityResidual (← m.operand)).handed ⟨0, 0⟩)))
  | .factorize m choices => do
    let m ← m.operand
    let choices ← Session.settings choices
    let f ← value (PivotedLU.factorize choices.pivotTolerance m)
    let s ← get
    let (kept, store) := s.store.keepFactors f
    set { s with store }
    replyFactors name kept []
  | .factorizeInPlace m choices => do
    let m ← m.dense?
    let choices ← Session.settings choices
    match ← onStore (StoredMatrix.factorizeInPlace choices.pivotTolerance m) with
    | .ok f => replyFactors name f [← seeMatrix m]
    | .error f => return ⟨.error (.failed f), [← seeMatrix m]⟩
  | .solve m b choices => do
    let m ← m.operand
    let b ← b.read
    let choices ← Session.settings choices
    let store := (← get).store
    replyVector name
      (PivotedLU.solve choices.pivotTolerance m (b.map (·.contents store)))
  | .inverse m choices => do
    let m ← m.operand
    let choices ← Session.settings choices
    replyMatrix name (PivotedLU.inverse choices.pivotTolerance m)
  | .inverseInPlace a dst choices => do
    let a ← a.dense?
    let dst ← dst.dense?
    let choices ← Session.settings choices
    let r ← onStore (StoredMatrix.inverseInPlace choices.pivotTolerance a dst)
    return ⟨ofResult (fun _ => .done) r, [← seeMatrix a, ← seeMatrix dst]⟩
  | .determinant m choices => do
    let m ← m.operand
    let choices ← Session.settings choices
    reply (.handedNumber (← value (handedDeterminant choices.pivotTolerance m)))
  | .determinantInPlace m choices => do
    let m ← m.dense?
    let choices ← Session.settings choices
    let r ← onStore (StoredMatrix.determinantInPlace choices.pivotTolerance m)
    return ⟨ofResult .handedNumber (r.handed 0), [← seeMatrix m]⟩
  | .factors f => do
    let f ← find Session.factors f
    replyFactors name f []
  | .lower f => ofFactors name f Factors.lower
  | .upper f => ofFactors name f Factors.upper
  | .permutation f => ofFactors name f Factors.permutation
  | .factorsSolve f b => do
    let f ← find Session.factors f
    let b ← b.read
    let store := (← get).store
    replyVector name ((f.view store).solve (b.map (·.contents store)))
  | .factorsSolveInto x b f => do
    let x ← x.read
    let b ← b.read
    let f ← find Session.factors f
    let r ← onStore (f.solveInto x b)
    return ⟨ofResult (fun _ => .done) r, [← seeVector x]⟩
  | .factorsInverse f => ofFactors name f Factors.inverse
  | .factorsInverseInto dst f => do
    let dst ← dst.dense?
    let f ← find Session.factors f
    let r ← onStore (f.inverseInto dst)
    return ⟨ofResult (fun _ => .done) r, [← seeMatrix dst]⟩
  | .factorsDeterminant f => do
    let f ← find Session.factors f
    reply (.number (← sound (f.view (← get).store).determinant))
  | .checkPresent m => do
    let _ ← value (Check.isPresent (← m.operand))
    reply .done
  | .checkSquare m => do
    let _ ← value (Check.isSquare (← m.operand))
    reply .done
  | .checkSameShape a b => do
    let a ← a.operand
    let b ← b.operand
    let _ ← value (Check.haveSameShape a b)
    reply .done
  | .checkMultipliable a b => do
    let a ← a.operand
    let b ← b.operand
    let _ ← value (Check.areMultipliable a b)
    reply .done
  | .checkLength x n => do
    let x ← x.read
    value (Check.hasLength (x.map (·.length)) n)
    reply .done
  | .checkFlatSquare a n => do
    let a ← a.read
    value (Check.holdsSquare (a.map (·.length)) n)
    reply .done
  | .checkNoAlias inputs out => do
    let inputs ← inputs.mapM VectorArgument.read
    let out ← out.read
    value ((out.getD .empty).noAlias (inputs.map (·.getD .empty)))
    reply .done

end PivotedLU.Session
