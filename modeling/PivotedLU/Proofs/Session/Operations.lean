import PivotedLU.Proofs.Session.Replies
import PivotedLU.Session.Run

/-!
# Runs of well-formed sessions

Which calls may be made in a session, and what all of them keep: a well-formed session stays well
formed, and no call ends in a fault.
-/

namespace PivotedLU.Session

variable {s t : Session} {name : Option String}

/-! ## Permitted calls -/

/-- The arguments are defined: every matrix comes from an operation or is known by shape and entries.
What is asked of a dense matrix is asked of one, and what is asked of the matrix itself is asked of
one that is there. Tolerances are valid. The rest is up to the caller. -/
def MatrixOperation.permitted (s : Session) : MatrixOperation → Bool
  | .zeros _ | .identity _ => true
  | .ofData _ data choices => data.isDefined s && validChoices choices
  | .ofRows rows choices => rows.all (·.isDefined s) && validChoices choices
  | .parse _ choices | .settings choices => validChoices choices
  | .keep m | .latex m _ | .trace m | .transpose m | .identityResidual m => m.isDefined s
  | .shape m | .entry m _ _ | .setEntry m _ _ _ => m.isDefined s && m.isThere s
  | .copy m | .entries m | .text m => m.isDense s && m.isThere s
  | .look m | .transposeInPlace m => m.isDense s
  | .multiply a b | .allClose a b _ _ => a.isDefined s && b.isDefined s
  | .multiplyInto dst a b => dst.isDense s && (a.isDense s && b.isDense s)
  | .isIdentity m choices | .factorize m choices => m.isDefined s && validChoices choices
  | .inverse m choices | .determinant m choices => m.isDefined s && validChoices choices
  | .solve m b choices => m.isDefined s && (b.isDefined s && validChoices choices)
  | .factorizeInPlace m choices | .determinantInPlace m choices => m.isDense s && validChoices choices
  | .inverseInPlace a dst choices => a.isDense s && (dst.isDense s && validChoices choices)
  | .factors f | .lower f | .upper f | .permutation f => s.definesFactors f
  | .factorsInverse f | .factorsDeterminant f => s.definesFactors f
  | .factorsSolve f b => s.definesFactors f && b.isDefined s
  | .factorsSolveInto x b f => x.isDefined s && (b.isDefined s && s.definesFactors f)
  | .factorsInverseInto dst f => dst.isDense s && s.definesFactors f
  | .checkPresent m | .checkSquare m => m.isDefined s
  | .checkSameShape a b | .checkMultipliable a b => a.isDefined s && b.isDefined s
  | .checkLength x _ | .checkFlatSquare x _ => x.isDefined s
  | .checkNoAlias inputs out => inputs.all (·.isDefined s) && out.isDefined s

/-- All operations on matrices and factors, and naming a vector. -/
def Operation.permitted (s : Session) : Operation → Bool
  | .matrix op => op.permitted s
  | .flat (.keep data) => data.isDefined s
  | _ => false

/-- Each call is permitted in the session that those before it left. -/
def permits (s : Session) : List (Option String × Operation) → Bool
  | [] => true
  | (name, op) :: rest => op.permitted s && (s.step name op).2.permits rest

/-! ## Calls that write -/

theorem MatrixOperation.meets_setEntry (hs : s.WellFormed) {m : MatrixArgument} {i j : Int64} {v : Float}
    (hop : permitted s (.setEntry m i j v) = true) :
    Meets (perform name (.setEntry m i j v)) s Done := by
  obtain ⟨hbuilt, hthere⟩ := Bool.and_eq_true_iff.mp hop
  refine (m.meets_read hs hbuilt).bind fun held t ht => ?_
  refine meets_needed (ht.there hthere) fun h hh => ?_
  have hwf := hs.during ht.during
  cases h with
  | dense d =>
      have hd : d.Fills t.store := ht.filled _ hh
      refine (meets_onStore (hd.set_served i j v)).bind fun r u hu => ?_
      exact meets_pure ⟨hwf.during hu.1, answer_ofResult hu.2 fun _ => trivial, by simp⟩
  | foreign f => exact .inr ⟨_, rfl⟩

theorem MatrixOperation.meets_multiplyInto (hs : s.WellFormed) {dst a b : MatrixArgument}
    (hop : permitted s (.multiplyInto dst a b) = true) :
    Meets (perform name (.multiplyInto dst a b)) s Done := by
  obtain ⟨hdst, hab⟩ := Bool.and_eq_true_iff.mp hop
  obtain ⟨ha, hb⟩ := Bool.and_eq_true_iff.mp hab
  refine meets_dense hs hdst fun d t hst ht hd _ => ?_
  refine meets_dense ht ((hst.isDense a).trans ha) fun x u htu hu hx _ => ?_
  refine meets_dense hu (((hst.trans htu).isDense b).trans hb) fun y v huv hv hy _ => ?_
  have hd : ∀ m ∈ d, m.Fills v.store := fun m hm => (hd m hm).grow (htu.trans huv).store
  have hx : ∀ m ∈ x, m.Fills v.store := fun m hm => (hx m hm).grow huv.store
  exact meets_change hv hd (StoredMatrix.multiplyInto_served hd hx hy) fun _ => trivial

theorem MatrixOperation.meets_factorizeInPlace (hs : s.WellFormed) {m : MatrixArgument} {choices : Choices}
    (hop : permitted s (.factorizeInPlace m choices) = true) :
    Meets (perform name (.factorizeInPlace m choices)) s Done := by
  obtain ⟨hm, hchoices⟩ := Bool.and_eq_true_iff.mp hop
  refine meets_dense hs hm fun d t hst ht hd _ => meets_settings hchoices fun settings => ?_
  refine (meets_onStore (StoredMatrix.factorizeInPlace_served _ hd)).bind fun r u hu => ?_
  have hsee : ∀ x ∈ d, x.Fills u.store := fun x hx => (hd x hx).grow hu.1.store
  rcases hu.2 with ⟨f, rfl, hf, -⟩ | ⟨e, rfl⟩
  · refine meets_seeMatrix hsee fun seen hseen => ?_
    exact meets_replyFactors (ht.during hu.1) hf (by simpa using hseen)
  · refine meets_seeMatrix hsee fun seen hseen => ?_
    exact meets_pure ⟨ht.during hu.1, .inr ⟨e, rfl⟩, by simpa using hseen⟩

theorem MatrixOperation.meets_inverseInPlace (hs : s.WellFormed) {a dst : MatrixArgument} {choices : Choices}
    (hop : permitted s (.inverseInPlace a dst choices) = true) :
    Meets (perform name (.inverseInPlace a dst choices)) s Done := by
  obtain ⟨ha, hdst⟩ := Bool.and_eq_true_iff.mp hop
  obtain ⟨hdst, hchoices⟩ := Bool.and_eq_true_iff.mp hdst
  refine meets_dense hs ha fun x t hst ht hx _ => ?_
  refine meets_dense ht ((hst.isDense dst).trans hdst) fun d u htu hu hd _ => ?_
  have hx : ∀ m ∈ x, m.Fills u.store := fun m hm => (hx m hm).grow htu.store
  refine meets_settings hchoices fun settings => ?_
  refine (meets_onStore (StoredMatrix.inverseInPlace_served _ hx hd)).bind fun r v hv => ?_
  refine meets_seeMatrix (fun m hm => (hx m hm).grow hv.1.store) fun seen hseen => ?_
  refine meets_seeMatrix (fun m hm => (hd m hm).grow hv.1.store) fun seen' hseen' => ?_
  exact meets_pure ⟨hu.during hv.1, answer_ofResult hv.2 fun _ => trivial, by simp [hseen, hseen']⟩

theorem MatrixOperation.meets_determinantInPlace (hs : s.WellFormed) {m : MatrixArgument} {choices : Choices}
    (hop : permitted s (.determinantInPlace m choices) = true) :
    Meets (perform name (.determinantInPlace m choices)) s Done := by
  obtain ⟨hm, hchoices⟩ := Bool.and_eq_true_iff.mp hop
  refine meets_dense hs hm fun d t hst ht hd _ => meets_settings hchoices fun settings => ?_
  refine (meets_onStore (StoredMatrix.determinantInPlace_served _ hd)).bind fun r u hu => ?_
  refine meets_seeMatrix (fun x hx => (hd x hx).grow hu.1.store) fun seen hseen => ?_
  exact meets_pure ⟨ht.during hu.1, answer_ofResult (.inl (hu.2.handed 0)) fun _ => trivial,
    by simpa using hseen⟩

theorem MatrixOperation.meets_factorsSolveInto (hs : s.WellFormed) {x b : VectorArgument} {f : String}
    (hop : permitted s (.factorsSolveInto x b f) = true) :
    Meets (perform name (.factorsSolveInto x b f)) s Done := by
  obtain ⟨hx, hb⟩ := Bool.and_eq_true_iff.mp hop
  obtain ⟨hb, hname⟩ := Bool.and_eq_true_iff.mp hb
  refine meets_vector hs hx fun x t hst ht hx => ?_
  refine meets_vector ht (hst.vector_isDefined hb) fun w u htu hu hw => ?_
  refine meets_findFactors hu (((hst.trans htu).definesFactors f).trans hname) fun f hf => ?_
  have hx : ∀ v ∈ x, v.Inside u.store := fun v hv => (hx v hv).grow htu.store
  refine (meets_onStore (hf.solveInto_served hx hw)).bind fun r v hv => ?_
  refine meets_seeVector fun seen hseen => ?_
  exact meets_pure ⟨hu.during hv.1, answer_ofResult hv.2 fun _ => trivial, by simpa using hseen⟩

/-! ## One call -/

theorem MatrixOperation.meets_perform (hs : s.WellFormed) {op : MatrixOperation}
    (hop : op.permitted s = true) : Meets (op.perform name) s Done := by
  cases op with
  | zeros shape =>
      refine meets_replyMatrix hs ((Dense.zeros_gives shape).mono fun d hd => ?_)
      obtain ⟨r, c, hfits, -, rfl⟩ := hd
      exact ⟨hfits, Array.size_replicate⟩
  | identity n => exact meets_replyMatrix hs (identity_gives n)
  | ofData shape data choices =>
      obtain ⟨hdata, hchoices⟩ := Bool.and_eq_true_iff.mp hop
      refine meets_vector hs hdata fun w t hst ht hw => meets_settings hchoices fun settings => ?_
      exact meets_get (meets_replyMatrix ht (Dense.ofData_gives shape _ _))
  | ofRows rows choices =>
      obtain ⟨hrows, hchoices⟩ := Bool.and_eq_true_iff.mp hop
      refine (meets_readAll hs hrows).bind fun ws t hst => meets_settings hchoices fun settings => ?_
      exact meets_get (meets_replyMatrix (hs.during hst) (Dense.ofRows_gives _ _))
  | parse text choices =>
      exact meets_settings hop fun settings => meets_replyMatrix hs (parseRows_gives text _)
  | keep m =>
      refine (m.meets_read hs hop).bind fun held t ht => ?_
      exact (meets_nameMatrix (hs.during ht.during) ht.filled).bind fun _ u hu => meets_reply hu trivial
  | settings choices => exact meets_settings hop fun settings => meets_reply hs trivial
  | look m =>
      refine meets_dense hs hop fun d t hst ht hd _ => meets_get (meets_reply ht ?_)
      cases d with
      | none => trivial
      | some d => exact hd d rfl
  | shape m => exact meets_neededOperand hs hop fun d t ht _ => meets_reply ht trivial
  | entry m i j =>
      refine meets_neededOperand hs hop fun d t ht hd => ?_
      exact meets_value (.inl ((hd.get_gives i j).handed 0)) fun v _ => meets_reply ht trivial
  | setEntry m i j v => exact meets_setEntry hs hop
  | copy m =>
      refine meets_neededDense hs hop fun d t ht hd => ?_
      exact meets_get (meets_replyMatrix ht (Result.gives_ok hd))
  | entries m =>
      refine meets_neededDense hs hop fun d t ht _ => ?_
      exact meets_get (meets_replyVector ht (p := fun _ => True) (Result.gives_ok trivial))
  | text m =>
      refine meets_neededDense hs hop fun d t ht hd => ?_
      obtain ⟨text, htext⟩ := hd.text_ok
      exact meets_get (meets_sound (p := fun _ => True) ⟨text, htext, trivial⟩ fun _ _ => meets_reply ht trivial)
  | latex m places =>
      exact meets_compute hs hop (fun o ho => .inl ((latex_gives ho places).handed "")) fun _ => trivial
  | trace m => exact meets_compute hs hop (fun o ho => .inl ((trace_gives ho).handed 0)) fun _ => trivial
  | transpose m =>
      refine meets_operand hs hop fun o t hst ht ho _ => ?_
      exact meets_replyMatrix ht (transpose_gives ho)
  | transposeInPlace m =>
      refine meets_dense hs hop fun d t hst ht hd _ => ?_
      exact meets_change ht hd (StoredMatrix.transposeInPlace_served hd) fun _ => trivial
  | multiply a b =>
      obtain ⟨ha, hb⟩ := Bool.and_eq_true_iff.mp hop
      refine meets_operand hs ha fun x t hst ht hx _ => ?_
      refine meets_operand ht ((hst.isDefined b).trans hb) fun y u htu hu hy _ => ?_
      exact meets_replyMatrix hu (multiply_gives hx hy)
  | multiplyInto dst a b => exact meets_multiplyInto hs hop
  | allClose a b rtol atol =>
      exact meets_compare hs hop (fun x y hx hy => allClose_gives hx hy rtol atol) fun _ => trivial
  | isIdentity m choices =>
      obtain ⟨hm, hchoices⟩ := Bool.and_eq_true_iff.mp hop
      refine meets_operand hs hm fun o t hst ht ho _ => meets_settings hchoices fun settings => ?_
      exact meets_value (isIdentity_gives ho settings) fun v _ => meets_reply ht trivial
  | identityResidual m =>
      exact meets_compute hs hop (fun o ho => .inl ((identityResidual_gives ho).handed ⟨0, 0⟩)) fun _ => trivial
  | factorize m choices =>
      obtain ⟨hm, hchoices⟩ := Bool.and_eq_true_iff.mp hop
      refine meets_operand hs hm fun o t hst ht ho _ => meets_settings hchoices fun settings => ?_
      refine meets_value (factorize_gives settings.pivotTolerance ho) fun f hf => ?_
      have hgrows : t.During { t with store := (t.store.keepFactors f).2 } :=
        during_store (t.store.grows_alloc f.lu)
      exact meets_replyFactors (ht.during hgrows) (Store.fills_keepFactors hf) (by simp)
  | factorizeInPlace m choices => exact meets_factorizeInPlace hs hop
  | solve m b choices =>
      obtain ⟨hm, hb⟩ := Bool.and_eq_true_iff.mp hop
      obtain ⟨hb, hchoices⟩ := Bool.and_eq_true_iff.mp hb
      refine meets_operand hs hm fun o t hst ht ho _ => ?_
      refine meets_vector ht (hst.vector_isDefined hb) fun w u htu hu hw => meets_settings hchoices fun settings => ?_
      exact meets_get (meets_replyVector hu (solve_gives settings.pivotTolerance ho _))
  | inverse m choices =>
      obtain ⟨hm, hchoices⟩ := Bool.and_eq_true_iff.mp hop
      refine meets_operand hs hm fun o t hst ht ho _ => meets_settings hchoices fun settings => ?_
      exact meets_replyMatrix ht (inverse_gives settings.pivotTolerance ho)
  | inverseInPlace a dst choices => exact meets_inverseInPlace hs hop
  | determinant m choices =>
      obtain ⟨hm, hchoices⟩ := Bool.and_eq_true_iff.mp hop
      refine meets_operand hs hm fun o t hst ht ho _ => meets_settings hchoices fun settings => ?_
      have hgives := determinant_gives settings.pivotTolerance ho
      exact meets_value (.inl (hgives.handed 0)) fun v _ => meets_reply ht trivial
  | determinantInPlace m choices => exact meets_determinantInPlace hs hop
  | factors f => exact meets_findFactors hs hop fun f hf => meets_replyFactors hs hf (by simp)
  | lower f => exact meets_ofFactors hs hop fun _ hf => hf.lower_ok
  | upper f => exact meets_ofFactors hs hop fun _ hf => hf.upper_ok
  | permutation f => exact meets_ofFactors hs hop fun _ hf => hf.permutation_ok
  | factorsSolve f b =>
      obtain ⟨hname, hb⟩ := Bool.and_eq_true_iff.mp hop
      refine meets_findFactors hs hname fun f hf => meets_vector hs hb fun w t hst ht hw => ?_
      exact meets_get (meets_replyVector ht ((hf.grow hst.store).solve_gives _))
  | factorsSolveInto x b f => exact meets_factorsSolveInto hs hop
  | factorsInverse f => exact meets_ofFactors hs hop fun _ hf => hf.inverse_ok
  | factorsInverseInto dst f =>
      obtain ⟨hdst, hname⟩ := Bool.and_eq_true_iff.mp hop
      refine meets_dense hs hdst fun d t hst ht hd _ => ?_
      refine meets_findFactors ht ((hst.definesFactors f).trans hname) fun f hf => ?_
      exact meets_change ht hd (hf.inverseInto_served hd) fun _ => trivial
  | factorsDeterminant f =>
      refine meets_findFactors hs hop fun f hf => ?_
      obtain ⟨v, hv⟩ := hf.determinant_ok
      exact meets_get (meets_sound (p := fun _ => True) ⟨v, hv, trivial⟩ fun v _ => meets_reply hs trivial)
  | checkPresent m => exact meets_compute hs hop (fun o _ => Check.isPresent_gives o) fun _ => trivial
  | checkSquare m => exact meets_compute hs hop (fun o _ => Check.isSquare_gives o) fun _ => trivial
  | checkSameShape a b =>
      exact meets_compare hs hop (fun x y _ _ => Check.haveSameShape_gives x y) fun _ => trivial
  | checkMultipliable a b =>
      exact meets_compare hs hop (fun x y _ _ => Check.areMultipliable_gives x y) fun _ => trivial
  | checkLength x n =>
      refine meets_vector hs hop fun w t hst ht hw => ?_
      exact meets_value (Check.hasLength_gives _ n) fun _ _ => meets_reply ht trivial
  | checkFlatSquare a n =>
      refine meets_vector hs hop fun w t hst ht hw => ?_
      exact meets_value (Check.holdsSquare_gives _ n) fun _ _ => meets_reply ht trivial
  | checkNoAlias inputs out =>
      obtain ⟨hinputs, hout⟩ := Bool.and_eq_true_iff.mp hop
      refine (meets_readAll hs hinputs).bind fun ws t hst => ?_
      refine meets_vector (hs.during hst) (hst.vector_isDefined hout) fun w u htu hu hw => ?_
      exact meets_value (Window.noAlias_gives _ _) fun _ _ => meets_reply hu trivial

theorem Operation.meets_perform (name : Option String) (hs : s.WellFormed) {op : Operation}
    (hop : op.permitted s = true) : Meets (op.perform name) s Done := by
  cases op with
  | matrix op => exact op.meets_perform hs hop
  | flat op =>
      cases op with
      | keep data =>
          refine meets_vector hs hop fun w t hst ht hw => ?_
          exact (meets_nameBuffer ht hw).bind fun _ u hu => meets_reply hu trivial
      | _ => cases hop
  | kernel op => cases hop
  | order op => cases hop

/-- One permitted call keeps the session well formed and is answered soundly. -/
theorem WellFormed.step (hs : s.WellFormed) (name : Option String) {op : Operation}
    (hop : op.permitted s = true) : (s.step name op).2.WellFormed ∧ (s.step name op).1.Sound := by
  unfold Session.step
  rcases op.meets_perform name hs hop with ⟨r, t, hrun, hdone⟩ | ⟨e, hrun⟩
  · rw [hrun]
    exact hdone
  · rw [hrun]
    exact ⟨hs, .inr ⟨e, rfl⟩, by simp⟩

/-! ## Whole runs -/

theorem WellFormed.run {calls : List (Option String × Operation)} (hs : s.WellFormed)
    (h : s.permits calls = true) :
    (s.run calls).2.WellFormed ∧ ∀ r ∈ (s.run calls).1, r.Sound := by
  induction calls generalizing s with
  | nil => exact ⟨hs, by simp [Session.run]⟩
  | cons call rest ih =>
      obtain ⟨name, op⟩ := call
      obtain ⟨hop, hrest⟩ := Bool.and_eq_true_iff.mp h
      obtain ⟨hstep, hsound⟩ := hs.step name hop
      obtain ⟨hwf, hreplies⟩ := ih hstep hrest
      refine ⟨hwf, ?_⟩
      intro r hr
      rcases List.mem_cons.mp hr with rfl | hr
      · exact hsound
      · exact hreplies r hr

theorem permits_append (s : Session) (before after : List (Option String × Operation)) :
    s.permits (before ++ after) = (s.permits before && (s.run before).2.permits after) := by
  induction before generalizing s with
  | nil => rfl
  | cons call rest ih =>
      obtain ⟨name, op⟩ := call
      rw [List.cons_append, permits, permits, ih, Bool.and_assoc]
      rfl

/-- Whatever permitted calls are made from the beginning, all matrices and factors are filled after
each of them, and each of them ends with an answer or an error of the domain. -/
theorem permitted_run_wellFormed (calls : List (Option String × Operation))
    (h : Session.empty.permits calls = true) :
    (∀ before, before <+: calls → (Session.empty.run before).2.WellFormed) ∧
      ∀ reply ∈ (Session.empty.run calls).1, reply.Sound := by
  refine ⟨?_, (wellFormed_empty.run h).2⟩
  rintro before ⟨after, rfl⟩
  rw [permits_append, Bool.and_eq_true] at h
  exact (wellFormed_empty.run h.1).1

/-- Factors that share the block of a matrix, which is changed under them; a shape whose size is not
a word, a matrix that answers no entry, a product into one of its factors. -/
def sharedRun : List (Option String × Operation) := [
  (some "m", .matrix (.ofRows [.fresh #[0, 1], .fresh #[2, 3]] [])),
  (some "f", .matrix (.factorizeInPlace (.named "m") [some (.pivotTolerance 0)])),
  (none, .matrix (.setEntry (.named "m") 1 1 0)),
  (none, .matrix (.transposeInPlace (.named "m"))),
  (some "x", .matrix (.factorsSolve "f" (.fresh #[1, 1]))),
  (none, .matrix (.factorsSolveInto (.part "x" 0 2) .absent "f")),
  (some "i", .matrix (.factorsInverse "f")),
  (none, .matrix (.zeros ⟨4611686018427387904, 2⟩)),
  (none, .matrix (.factorize (.foreign (.ofTable ⟨2, 2⟩ #[] none)) [])),
  (none, .matrix (.multiplyInto (.named "m") (.named "m") (.named "i")))]

theorem permitted_run_wellFormed_shared : Session.empty.permits sharedRun = true ∧
    (Session.empty.run sharedRun).2.WellFormed ∧
    (∀ reply ∈ (Session.empty.run sharedRun).1, reply.Sound) ∧
    (Session.empty.run sharedRun).2.factors.lookup "f" = some ⟨2, 2, ⟨#[1, 0, 3]⟩⟩ := by
  have h : Session.empty.permits sharedRun = true := by decide +kernel
  obtain ⟨hwf, hsound⟩ := permitted_run_wellFormed sharedRun h
  exact ⟨h, hwf sharedRun (List.prefix_refl _), hsound, by decide +kernel⟩

end PivotedLU.Session
