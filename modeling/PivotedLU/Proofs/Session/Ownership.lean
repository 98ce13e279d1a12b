import PivotedLU.Proofs.Session.Reach
import PivotedLU.Session.Run

/-!
# Ownership

Which operations write, and what all operations together leave alone. Factors of a copied matrix lie
in a block that nothing else has a name for, so no later call can change what they answer.
-/

namespace PivotedLU.Session

variable {touched : Nat → Prop} {s t : Session} {name : Option String}

/-! ## Operations that write -/

/-- The operation writes into cells that were there before. -/
def MatrixOperation.writes : MatrixOperation → Bool
  | .setEntry .. | .transposeInPlace _ | .multiplyInto .. | .factorizeInPlace .. => true
  | .inverseInPlace .. | .determinantInPlace .. => true
  | .factorsSolveInto .. | .factorsInverseInto .. => true
  | _ => false

@[inherit_doc MatrixOperation.writes]
def FlatOperation.writes : FlatOperation → Bool
  | .decompose .. | .inverse .. | .determinant .. | .transpose .. | .multiply .. => true
  | _ => false

@[inherit_doc MatrixOperation.writes]
def KernelOperation.writes : KernelOperation → Bool
  | .decompose .. | .solve .. | .invert .. | .transpose .. | .multiply .. => true
  | _ => false

@[inherit_doc MatrixOperation.writes]
def Operation.writes : Operation → Bool
  | .matrix op => op.writes
  | .flat op => op.writes
  | .kernel op => op.writes
  | .order _ => false

/-! ## One call -/

theorem MatrixOperation.moves_perform {op : MatrixOperation}
    (htouched : op.writes = true → ∀ b, s.Reaches b → touched b) :
    Ends (op.perform name) s fun _ => s.Moves touched := by
  have h := Moves.refl touched s
  cases op with
  | zeros | identity => exact ends_replyMatrix h
  | ofData shape data choices =>
      exact ends_vector h fun w t ht _ => ends_settings fun _ => ends_get (ends_replyMatrix ht)
  | ofRows rows choices =>
      exact ends_readAll h fun ws t ht => ends_settings fun _ => ends_get (ends_replyMatrix ht)
  | parse text choices => exact ends_settings fun _ => ends_replyMatrix h
  | keep m =>
      refine ends_matrix h fun held t ht hsince => ?_
      cases name with
      | none => exact ends_pure ht
      | some name => exact ends_pure (ht.putMatrix name hsince)
  | settings choices => exact ends_settings fun _ => ends_pure h
  | look m => exact ends_dense h fun d t ht _ => ends_get (ends_pure ht)
  | shape m => exact ends_operand h fun d t ht => ends_needed fun _ _ => ends_pure ht
  | entry m i j =>
      exact ends_operand h fun d t ht => ends_needed fun _ _ => ends_value fun _ => ends_pure ht
  | setEntry m i j v =>
      refine ends_matrix h fun held t ht hsince => ends_needed fun d hd => ?_
      cases d with
      | dense d =>
          refine ends_onStore ht (d.set_writes i j v t.store) ?_ fun r u hu => ends_pure hu
          rintro _ rfl hlt
          exact htouched rfl _ ((hsince d hd).reaches hlt)
      | foreign f => exact ends_fail _
  | copy m =>
      exact ends_dense h fun d t ht _ => ends_needed fun _ _ => ends_get (ends_replyMatrix ht)
  | entries m =>
      exact ends_dense h fun d t ht _ => ends_needed fun _ _ => ends_get (ends_replyVector ht)
  | text m =>
      refine ends_dense h fun d t ht _ => ends_needed fun _ _ => ends_get ?_
      exact ends_sound fun _ _ => ends_pure ht
  | latex | trace | identityResidual =>
      exact ends_operand h fun d t ht => ends_value fun _ => ends_pure ht
  | transpose m => exact ends_operand h fun d t ht => ends_replyMatrix ht
  | transposeInPlace m =>
      refine ends_dense h fun d t ht hd => ?_
      refine ends_onStore ht (StoredMatrix.transposeInPlace_writes d t.store)
        (touched_of_since (htouched rfl) hd) fun r u hu => ?_
      exact ends_get (ends_pure hu)
  | multiply a b =>
      exact ends_operand h fun x t ht => ends_operand ht fun y u hu => ends_replyMatrix hu
  | multiplyInto dst a b =>
      refine ends_dense h fun d t ht hd => ends_dense ht fun x u hu _ => ends_dense hu fun y v hv _ => ?_
      refine ends_onStore hv (StoredMatrix.multiplyInto_writes x y d v.store)
        (touched_of_since (htouched rfl) hd) fun r w hw => ?_
      exact ends_get (ends_pure hw)
  | allClose a b rtol atol =>
      refine ends_operand h fun x t ht => ends_operand ht fun y u hu => ?_
      exact ends_value fun _ => ends_pure hu
  | isIdentity m choices =>
      refine ends_operand h fun d t ht => ends_settings fun _ => ?_
      exact ends_value fun _ => ends_pure ht
  | factorize m choices =>
      refine ends_operand h fun d t ht => ends_settings fun _ => ends_value fun f => ?_
      exact ends_get (ends_replyFactors (ht.alloc f.lu))
  | factorizeInPlace m choices =>
      refine ends_dense h fun d t ht hd => ends_settings fun choices => ?_
      refine ends_onStore ht (StoredMatrix.factorizeInPlace_writes choices.pivotTolerance d t.store)
        (touched_of_since (htouched rfl) hd) fun r u hu => ?_
      cases r with
      | ok f => exact ends_get (ends_replyFactors hu)
      | error f => exact ends_get (ends_pure hu)
  | solve m b choices =>
      refine ends_operand h fun d t ht => ends_vector ht fun w u hu _ => ends_settings fun _ => ?_
      exact ends_get (ends_replyVector hu)
  | inverse m choices =>
      exact ends_operand h fun d t ht => ends_settings fun _ => ends_replyMatrix ht
  | inverseInPlace a dst choices =>
      refine ends_dense h fun x t ht hx => ends_dense ht fun d u hu hd => ends_settings fun choices => ?_
      refine ends_onStore hu (StoredMatrix.inverseInPlace_writes choices.pivotTolerance x d u.store) ?_
        fun r v hv => ends_get (ends_get (ends_pure hv))
      rintro b (hb | hb)
      · exact touched_of_since (htouched rfl) hx b hb
      · exact touched_of_since (htouched rfl) hd b hb
  | determinant m choices =>
      refine ends_operand h fun d t ht => ends_settings fun _ => ?_
      exact ends_value fun _ => ends_pure ht
  | determinantInPlace m choices =>
      refine ends_dense h fun d t ht hd => ends_settings fun choices => ?_
      refine ends_onStore ht (StoredMatrix.determinantInPlace_writes choices.pivotTolerance d t.store)
        (touched_of_since (htouched rfl) hd) fun r u hu => ?_
      exact ends_get (ends_pure hu)
  | factors f => exact ends_find fun _ _ => ends_replyFactors h
  | lower | upper | permutation | factorsInverse => exact ends_ofFactors h
  | factorsSolve f b =>
      exact ends_find fun _ _ => ends_vector h fun w t ht _ => ends_get (ends_replyVector ht)
  | factorsSolveInto x b f =>
      refine ends_vector h fun x t ht hx => ends_vector ht fun w u hu _ => ends_find fun f _ => ?_
      refine ends_onStore hu (f.solveInto_writes u.store x w)
        (touched_of_since (htouched rfl) hx) fun r v hv => ?_
      exact ends_get (ends_pure hv)
  | factorsInverseInto dst f =>
      refine ends_dense h fun d t ht hd => ends_find fun f _ => ?_
      refine ends_onStore ht (f.inverseInto_writes t.store d)
        (touched_of_since (htouched rfl) hd) fun r u hu => ?_
      exact ends_get (ends_pure hu)
  | factorsDeterminant f =>
      exact ends_find fun _ _ => ends_get (ends_sound fun _ _ => ends_pure h)
  | checkPresent | checkSquare =>
      exact ends_operand h fun d t ht => ends_value fun _ => ends_pure ht
  | checkSameShape | checkMultipliable =>
      refine ends_operand h fun x t ht => ends_operand ht fun y u hu => ?_
      exact ends_value fun _ => ends_pure hu
  | checkLength | checkFlatSquare =>
      exact ends_vector h fun w t ht _ => ends_value fun _ => ends_pure ht
  | checkNoAlias inputs out =>
      refine ends_readAll h fun ws t ht => ends_vector ht fun w u hu _ => ?_
      exact ends_value fun _ => ends_pure hu

theorem FlatOperation.moves_perform {op : FlatOperation}
    (htouched : op.writes = true → ∀ b, s.Reaches b → touched b) :
    Ends (op.perform name) s fun _ => s.Moves touched := by
  have h := Moves.refl touched s
  cases op with
  | keep data =>
      refine ends_vector h fun w t ht hsince => ?_
      cases name with
      | none => exact ends_pure ht
      | some name => exact ends_pure (ht.putBuffer name hsince)
  | look a => exact ends_vector h fun w t ht _ => ends_get (ends_pure ht)
  | decompose a n =>
      refine ends_vector h fun w t ht hw => ?_
      refine ends_onStore ht (Flat.eliminate_writes .flatDecompose w n t.store)
        (touched_of_since (htouched rfl) hw) fun r u hu => ?_
      cases r with
      | ok p => exact ends_nameOrder hu fun v hv => ends_get (ends_pure hv)
      | error f => exact ends_get (ends_pure hu)
  | solve a p b n =>
      refine ends_vector h fun w t ht _ => ends_order fun q => ends_vector ht fun v u hu _ => ?_
      exact ends_get (ends_replyVector hu)
  | inverse a ia n =>
      refine ends_vector h fun w t ht hw => ends_vector ht fun v u hu hv => ?_
      refine ends_onStore hu (Flat.inverse_writes w v n u.store) ?_
        fun r z hz => ends_get (ends_get (ends_pure hz))
      rintro b (hb | hb)
      · exact touched_of_since (htouched rfl) hw b hb
      · exact touched_of_since (htouched rfl) hv b hb
  | determinant a n =>
      refine ends_vector h fun w t ht hw => ?_
      refine ends_onStore ht (Flat.determinant_writes w n t.store)
        (touched_of_since (htouched rfl) hw) fun r u hu => ?_
      exact ends_get (ends_pure hu)
  | trace a n => exact ends_vector h fun w t ht _ => ends_get (ends_value fun _ => ends_pure ht)
  | transpose a n =>
      refine ends_vector h fun w t ht hw => ?_
      refine ends_onStore ht (Flat.transpose_writes w n t.store)
        (touched_of_since (htouched rfl) hw) fun r u hu => ?_
      exact ends_get (ends_pure hu)
  | multiply r x y n =>
      refine ends_vector h fun r t ht hr => ends_vector ht fun x u hu _ => ends_vector hu fun y v hv _ => ?_
      refine ends_onStore hv (Flat.multiply_writes x y r n v.store)
        (touched_of_since (htouched rfl) hr) fun r w hw => ?_
      exact ends_get (ends_pure hw)
  | overlaps a b => exact ends_vector h fun w t ht _ => ends_vector ht fun v u hu _ => ends_pure hu

theorem KernelOperation.moves_perform {op : KernelOperation}
    (htouched : op.writes = true → ∀ b, s.Reaches b → touched b) : Ends op.perform s fun _ => s.Moves touched := by
  have h := Moves.refl touched s
  cases op with
  | decompose a p n tol =>
      refine ends_vector h fun w t ht hw => ends_order fun q => ends_get (ends_sound fun e he => ?_)
      have hkept := Kernel.decompose_stable (Window.getD_stable w t.store) (.refl _ t.store) he
      have hmoves := ht.write hkept (touched_of_since (htouched rfl) hw)
      exact ends_set (ends_nameOrder hmoves fun u hu => ends_get (ends_pure hu))
  | degenerateColumn a n tol =>
      exact ends_vector h fun w t ht _ => ends_get (ends_sound fun _ _ => ends_pure ht)
  | solve x a p b n =>
      refine ends_vector h fun x t ht hx => ends_vector ht fun a u hu _ => ends_order fun q => ?_
      refine ends_vector hu fun b v hv _ => ?_
      exact ends_runKernel hv
        (fun store => Kernel.solve_stable (Window.getD_stable x v.store) (.refl _ v.store))
        (touched_of_since (htouched rfl) hx) fun w hw => ends_get (ends_pure hw)
  | invert ia a p n =>
      refine ends_vector h fun x t ht hx => ends_vector ht fun a u hu _ => ends_order fun q => ?_
      exact ends_runKernel hu
        (fun store => Kernel.invert_stable (Window.getD_stable x u.store) (.refl _ u.store))
        (touched_of_since (htouched rfl) hx) fun v hv => ends_get (ends_pure hv)
  | determinant a p n =>
      refine ends_vector h fun w t ht _ => ends_order fun q => ?_
      exact ends_get (ends_sound fun _ _ => ends_pure ht)
  | trace a n =>
      exact ends_vector h fun w t ht _ => ends_get (ends_sound fun _ _ => ends_pure ht)
  | transpose a n =>
      refine ends_vector h fun x t ht hx => ?_
      exact ends_runKernel ht
        (fun store => Kernel.transpose_stable (Window.getD_stable x t.store) (.refl _ t.store))
        (touched_of_since (htouched rfl) hx) fun u hu => ends_get (ends_pure hu)
  | multiply r x y n =>
      refine ends_vector h fun r t ht hr => ends_vector ht fun x u hu _ => ends_vector hu fun y v hv _ => ?_
      exact ends_runKernel hv
        (fun store => Kernel.multiply_stable (Window.getD_stable r v.store) (.refl _ v.store))
        (touched_of_since (htouched rfl) hr) fun w hw => ends_get (ends_pure hw)

theorem OrderOperation.moves_perform (op : OrderOperation) : Ends (op.perform name) s fun _ => s.Moves touched := by
  have h := Moves.refl touched s
  cases op with
  | make n => exact ends_sound fun p _ => ends_nameOrder h fun t ht => ends_pure ht
  | reset p => exact ends_order fun q => ends_nameOrder h fun t ht => ends_pure ht
  | dimension p => exact ends_order fun q => ends_pure h
  | swaps | sign | rows | isValid => exact ends_order fun q => ends_sound fun _ _ => ends_pure h

theorem Operation.moves_perform (name : Option String) {op : Operation}
    (htouched : op.writes = true → ∀ b, s.Reaches b → touched b) :
    Ends (op.perform name) s fun _ => s.Moves touched := by
  cases op with
  | matrix op => exact op.moves_perform htouched
  | flat op => exact op.moves_perform htouched
  | kernel op => exact op.moves_perform htouched
  | order op => exact op.moves_perform

/-- A call touches blocks within reach at most, and none at all if it does not write. -/
theorem step_moves (s : Session) (name : Option String) {op : Operation}
    (htouched : op.writes = true → ∀ b, s.Reaches b → touched b) :
    s.Moves touched (s.step name op).2 := by
  unfold step
  split
  next reply t h => exact Operation.moves_perform name htouched reply t h
  next => exact .refl touched s

/-! ## Whole runs -/

theorem run_moves (s : Session) (calls : List (Option String × Operation)) :
    s.Moves s.Reaches (s.run calls).2 := by
  induction calls generalizing s with
  | nil => exact .refl _ s
  | cons call rest ih =>
      obtain ⟨name, op⟩ := call
      exact (s.step_moves name fun _ _ hb => hb).trans (ih (s.step name op).2)

/-! ## What factors answer -/

/-- What factors can be asked for. -/
inductive Query where
  | summary
  | lower
  | upper
  | permutation
  | inverse
  | determinant
  | solve (b : Option (Array Float))

namespace Query

/-- The call that asks the factors of that name. -/
def of (f : String) : Query → MatrixOperation
  | summary => .factors f
  | lower => .lower f
  | upper => .upper f
  | permutation => .permutation f
  | inverse => .factorsInverse f
  | determinant => .factorsDeterminant f
  | solve none => .factorsSolve f .absent
  | solve (some b) => .factorsSolve f (.fresh b)

/-- What the factors themselves answer. -/
def answer (f : Factors Float) : Query → Result Answer
  | summary => do
    let rows ← Result.ofFaulty f.order.rows
    let swaps ← Result.ofFaulty f.order.swaps
    return .factors f.n rows swaps
  | lower => (Result.ofFaulty f.lower).map fun d => .matrix (some d)
  | upper => (Result.ofFaulty f.upper).map fun d => .matrix (some d)
  | permutation => (Result.ofFaulty f.permutation).map fun d => .matrix (some d)
  | inverse => (Result.ofFaulty f.inverse).map fun d => .matrix (some d)
  | determinant => (Result.ofFaulty f.determinant).map .number
  | solve b => (f.solve b).map fun x => .vector (some x)

end Query

/-- The step ends with the reply, or it is refused for the reason that the reply gives. -/
def Replies (x : Step Reply) (s : Session) (r : Reply) : Prop :=
  (∃ t, x.run s = .ok (r, t)) ∨ ∃ e, x.run s = .error e ∧ r = ⟨.error e, []⟩

theorem replies_find {β : Type} {names : Session → Names β} {key : String} {v : β} {k : β → Step Reply}
    {r : Reply} (hv : (names s).lookup key = some v) (h : Replies (k v) s r) :
    Replies (find names key >>= k) s r := by
  have hrun : (find names key >>= k).run s = (k v).run s := by simp [find, hv]
  rw [Replies, hrun]
  exact h

theorem replies_matrix (r : Result (Dense Float)) :
    Replies (replyMatrix name r) s ⟨ofResult id (r.map fun d => .matrix (some d)), []⟩ := by
  cases r with
  | ok d => cases name <;> exact .inl ⟨_, rfl⟩
  | error f => exact .inr ⟨_, rfl, rfl⟩

theorem replies_vector (name : Option String) (r : Result (Array Float)) :
    Replies (replyVector name r) s ⟨ofResult id (r.map fun v => .vector (some v)), []⟩ := by
  cases r with
  | ok v => cases name <;> exact .inl ⟨_, rfl⟩
  | error f => exact .inr ⟨_, rfl, rfl⟩

theorem replies_ofFactors {key : String} {f : StoredFactors} (hf : s.factors.lookup key = some f)
    (make : Factors Float → Except Fault (Dense Float)) :
    Replies (ofFactors name key make) s
      ⟨ofResult id ((Result.ofFaulty (make (f.view s.store))).map fun d => .matrix (some d)), []⟩ :=
  replies_find hf (replies_matrix _)

/-- A query is answered by the factors as they stand. -/
theorem Query.replies (q : Query) {key : String} {f : StoredFactors}
    (hf : s.factors.lookup key = some f) (hb : f.block < s.store.blocks.size) :
    Replies ((q.of key).perform name) s ⟨ofResult id (q.answer (f.view s.store)), []⟩ := by
  cases q with
  | summary =>
      refine replies_find hf ?_
      show Replies _ s ⟨ofResult id (do
        let rows ← Result.ofFaulty f.order.rows
        let swaps ← Result.ofFaulty f.order.swaps
        return .factors f.n rows swaps), []⟩
      unfold replyFactors
      cases f.order.rows with
      | error e => exact .inr ⟨_, rfl, rfl⟩
      | ok rows =>
          cases f.order.swaps with
          | error e => exact .inr ⟨_, rfl, rfl⟩
          | ok swaps => cases name <;> exact .inl ⟨_, rfl⟩
  | lower => exact replies_ofFactors hf Factors.lower
  | upper => exact replies_ofFactors hf Factors.upper
  | permutation => exact replies_ofFactors hf Factors.permutation
  | inverse => exact replies_ofFactors hf Factors.inverse
  | determinant =>
      refine replies_find hf ?_
      show Replies (sound (f.view s.store).determinant >>= fun x => reply (.number x)) s
        ⟨ofResult id ((Result.ofFaulty (f.view s.store).determinant).map .number), []⟩
      cases (f.view s.store).determinant with
      | error e => exact .inr ⟨_, rfl, rfl⟩
      | ok x => exact .inl ⟨_, rfl⟩
  | solve b =>
      cases b with
      | none => exact replies_find hf (replies_vector name ((f.view s.store).solve none))
      | some b =>
          refine replies_find hf ?_
          -- The right-hand side gets a block of its own, next to that of the factors.
          have hview : f.view (s.store.alloc b).2 = f.view s.store := by
            simp only [StoredFactors.view, Store.block_alloc_of_lt b hb]
          have hcells : (⟨s.store.blocks.size, 0, b.size⟩ : Window).contents (s.store.alloc b).2 = b := by
            simp [Window.contents, Store.block_alloc]
          have h : Replies (replyVector name ((f.view (s.store.alloc b).2).solve
              (some ((⟨s.store.blocks.size, 0, b.size⟩ : Window).contents (s.store.alloc b).2))))
              { s with store := (s.store.alloc b).2 }
              ⟨ofResult id (Query.answer (f.view s.store) (.solve (some b))), []⟩ := by
            rw [hview, hcells]
            exact replies_vector name _
          exact h

/-- The reply to a query, whatever name the answer gets. -/
theorem Query.reply_eq (q : Query) (name : Option String) {key : String} {f : StoredFactors}
    (hf : s.factors.lookup key = some f) (hb : f.block < s.store.blocks.size) :
    (s.step name (.matrix (q.of key))).1 = ⟨ofResult id (q.answer (f.view s.store)), []⟩ := by
  have h : Replies ((Operation.matrix (q.of key)).perform name) s
      ⟨ofResult id (q.answer (f.view s.store)), []⟩ := q.replies hf hb
  unfold step
  rcases h with ⟨t, h⟩ | ⟨e, h, heq⟩
  · rw [h]
  · rw [h, heq]

/-! ## Factors with a block to themselves -/

/-- The factors lie in a block that nothing can be written through. -/
def Owns (s : Session) (f : StoredFactors) : Prop :=
  f.block < s.store.blocks.size ∧ ¬ s.Reaches f.block

theorem Owns.moves {f : StoredFactors} (h : s.Owns f) (hst : s.Moves s.Reaches t) : t.Owns f :=
  ⟨Nat.lt_of_lt_of_le h.1 hst.grows, fun hb => h.2 ((hst.reached _ hb).reaches h.1)⟩

theorem Owns.view_eq {f : StoredFactors} (h : s.Owns f) (hst : s.Moves s.Reaches t) :
    f.view t.store = f.view s.store := by
  rw [StoredFactors.view, StoredFactors.view, hst.kept f.block h.1 h.2]

/-- Factors of a copy are owned as soon as they are there. -/
theorem ends_factorize (hs : s.Anchored) (key : String) (m : MatrixArgument) (choices : Choices) :
    Ends ((MatrixOperation.factorize m choices).perform (some key)) s fun _ t =>
      ∃ f, t.factors.lookup key = some f ∧ t.Owns f := by
  refine ends_operand (.refl s.Reaches s) fun d t ht => ends_settings fun _ => ends_value fun f => ?_
  refine ends_get (ends_set (ends_sound fun rows _ => ends_sound fun swaps _ => ends_pure ?_))
  refine ⟨(t.store.keepFactors f).1, Names.lookup_put t.factors key _, ?_, fun hb => ?_⟩
  · show t.store.blocks.size < (t.store.alloc f.lu).2.blocks.size
    exact Nat.lt_of_lt_of_eq (Nat.lt_succ_self _) (Array.size_push _).symm
  · exact Nat.lt_irrefl _ (ht.anchored hs _ hb)

theorem anchored_empty : Session.empty.Anchored := by
  rintro b (⟨name, m, hmem, _⟩ | ⟨name, w, hmem, _⟩)
  · cases hmem
  · cases hmem

theorem Anchored.run (hs : s.Anchored) (calls : List (Option String × Operation)) :
    (s.run calls).2.Anchored :=
  (s.run_moves calls).anchored hs

/-- Factors of a copied matrix answer every query in the same way for ever, whatever is called in
between, and an operation that does not write leaves all cells as they are. -/
theorem owned_factors_unchanged (hs : s.Anchored) :
    (∀ key m choices reply t,
      s.step (some key) (.matrix (.factorize m choices)) = (reply, t) → reply.answer.isOk = true →
      ∃ f, t.factors.lookup key = some f ∧ ∀ calls,
        f.view (t.run calls).2.store = f.view t.store ∧
        ∀ q name name' key', (t.run calls).2.factors.lookup key' = some f →
          ((t.run calls).2.step name' (.matrix (Query.of key' q))).1 =
            (t.step name (.matrix (Query.of key q))).1) ∧
    ∀ name op, op.writes = false → ∀ b < s.store.blocks.size,
      (s.step name op).2.store.block b = s.store.block b := by
  constructor
  · intro key m choices reply t hstep hok
    obtain ⟨f, hf, hown⟩ : ∃ f, t.factors.lookup key = some f ∧ t.Owns f := by
      unfold step at hstep
      split at hstep
      next r u hrun =>
        cases hstep
        exact ends_factorize hs key m choices _ _ hrun
      next =>
        cases hstep
        cases hok
    refine ⟨f, hf, fun calls => ?_⟩
    have hmoves := t.run_moves calls
    have hview := hown.view_eq hmoves
    refine ⟨hview, fun q name name' key' hf' => ?_⟩
    calc ((t.run calls).2.step name' (.matrix (q.of key'))).1
      _ = ⟨ofResult id (q.answer (f.view (t.run calls).2.store)), []⟩ :=
          q.reply_eq name' hf' (hown.moves hmoves).1
      _ = ⟨ofResult id (q.answer (f.view t.store)), []⟩ := by rw [hview]
      _ = (t.step name (.matrix (q.of key))).1 := (q.reply_eq name hf hown.1).symm
  · intro name op hop b hb
    have hmoves : s.Moves (fun _ => False) (s.step name op).2 :=
      s.step_moves name fun hwrites => absurd hwrites (by simp [hop])
    exact hmoves.kept b hb id

/-- A matrix is overwritten after its copy was factorized, last of all with the inverse that the
factors give. -/
def overwritingRun : List (Option String × Operation) := [
  (none, .matrix (.setEntry (.named "m") 0 0 7)),
  (none, .matrix (.transposeInPlace (.named "m"))),
  (some "g", .matrix (.factorizeInPlace (.named "m") [])),
  (none, .matrix (.factorsInverseInto (.named "m") "f")),
  (some "h", .matrix (.factors "f"))]

theorem owned_factors_unchanged_overwritten :
    let s := (Session.empty.run [(some "m", .matrix (.ofRows [.fresh #[4, 3], .fresh #[6, 3]] []))]).2
    let t := (s.step (some "f") (.matrix (.factorize (.named "m") []))).2
    (t.run overwritingRun).2.store.block 2 ≠ t.store.block 2 ∧
      ∀ q : Query, ((t.run overwritingRun).2.step none (.matrix (q.of "h"))).1 =
        (t.step none (.matrix (q.of "f"))).1 := by
  intro s t
  refine ⟨by decide +kernel, fun q => ?_⟩
  have hs : s.Anchored := anchored_empty.run _
  obtain ⟨f, hf, hkept⟩ := (owned_factors_unchanged hs).1 "f" (.named "m") [] _ t rfl (by decide +kernel)
  have hsame : (t.run overwritingRun).2.factors.lookup "h" = t.factors.lookup "f" := by decide +kernel
  exact (hkept overwritingRun).2 q none none "h" (hsame.trans hf)

end PivotedLU.Session
