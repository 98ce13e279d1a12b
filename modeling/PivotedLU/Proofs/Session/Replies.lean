import PivotedLU.Proofs.Session.Arguments
import PivotedLU.Session.Matrices

/-!
# Replies of well-formed sessions

The ends that operations have in common: an answer alone, a thing kept under a name, a change of the
store that can be seen. Each leaves a well-formed session and a reply in which all matrices are
filled.
-/

namespace PivotedLU.Session

variable {s t : Session} {name : Option String}

/-! ## Sound replies -/

/-- A matrix is filled, and factors have a row for each of at least one dimension. -/
def Answer.Sound : Answer → Prop
  | .matrix (some d) => d.Filled
  | .factors n p _ => 0 < n ∧ p.size = n
  | _ => True

def Seen.Sound : Seen → Prop
  | .matrix (some d) => d.Filled
  | _ => True

/-- A sound answer or an error of the domain, and filled matrices to be seen. -/
structure Reply.Sound (r : Reply) : Prop where
  answer : (∃ a, r.answer = .ok a ∧ a.Sound) ∨ ∃ e : Error, r.answer = .error (.failed (.error e))
  seen : ∀ x ∈ r.seen, x.Sound

/-- What every permitted call leaves behind. -/
def Done (r : Reply) (t : Session) : Prop :=
  t.WellFormed ∧ r.Sound

theorem answer_ofResult {β : Type} {r : Result β} {p : β → Prop} {make : β → Answer} (hr : r.Gives p)
    (hmake : ∀ v, (make v).Sound) :
    (∃ a, ofResult make r = .ok a ∧ a.Sound) ∨
      ∃ e : Error, ofResult make r = .error (.failed (.error e)) := by
  rcases hr with ⟨v, rfl, -⟩ | ⟨e, rfl⟩
  · exact .inl ⟨_, rfl, hmake v⟩
  · exact .inr ⟨e, rfl⟩

theorem meets_reply (hs : s.WellFormed) {a : Answer} (ha : a.Sound) : Meets (reply a) s Done :=
  meets_pure ⟨hs, .inl ⟨a, rfl, ha⟩, by simp⟩

theorem meets_seeMatrix {γ : Type} {Q : γ → Session → Prop} {d : Option StoredMatrix} {k : Seen → Step γ}
    (hd : ∀ x ∈ d, x.Fills s.store) (hk : ∀ x, x.Sound → Meets (k x) s Q) :
    Meets (seeMatrix d >>= k) s Q := by
  refine hk _ ?_
  cases d with
  | none => trivial
  | some m => exact hd m rfl

theorem meets_seeVector {γ : Type} {Q : γ → Session → Prop} {w : Option Window} {k : Seen → Step γ}
    (hk : ∀ x, x.Sound → Meets (k x) s Q) : Meets (seeVector w >>= k) s Q :=
  hk _ trivial

/-! ## Names -/

theorem WellFormed.putMatrix (hs : s.WellFormed) (name : String) {m : Option Held}
    (hm : ∀ h ∈ m, (h.operand s.store).Filled) :
    WellFormed { s with matrices := s.matrices.put name m } where
  matrices key d hd := by
    rcases Names.mem_put hd with heq | hmem
    · cases heq
      exact hm _ rfl
    · exact hs.matrices key d hmem
  factors := hs.factors
  buffers := hs.buffers

theorem WellFormed.putFactors (hs : s.WellFormed) (name : String) {f : StoredFactors}
    (hf : f.Fills s.store) : WellFormed { s with factors := s.factors.put name f } where
  matrices := hs.matrices
  factors key g hg := by
    rcases Names.mem_put hg with heq | hmem
    · cases heq
      exact hf
    · exact hs.factors key g hmem
  buffers := hs.buffers

theorem WellFormed.putBuffer (hs : s.WellFormed) (name : String) {w : Option Window}
    (hw : ∀ x ∈ w, x.Inside s.store) : WellFormed { s with buffers := s.buffers.put name w } where
  matrices := hs.matrices
  factors := hs.factors
  buffers key x hx := by
    rcases Names.mem_put hx with heq | hmem
    · cases heq
      exact hw _ rfl
    · exact hs.buffers key x hmem

theorem meets_nameMatrix (hs : s.WellFormed) {m : Option Held}
    (hm : ∀ h ∈ m, (h.operand s.store).Filled) :
    Meets (nameMatrix name m) s fun _ t => t.WellFormed := by
  cases name with
  | none => exact meets_pure hs
  | some name => exact .inl ⟨(), _, rfl, hs.putMatrix name hm⟩

theorem meets_nameFactors (hs : s.WellFormed) {f : StoredFactors} (hf : f.Fills s.store) :
    Meets (nameFactors name f) s fun _ t => t.WellFormed := by
  cases name with
  | none => exact meets_pure hs
  | some name => exact .inl ⟨(), _, rfl, hs.putFactors name hf⟩

theorem meets_nameBuffer (hs : s.WellFormed) {w : Option Window} (hw : ∀ x ∈ w, x.Inside s.store) :
    Meets (nameBuffer name w) s fun _ t => t.WellFormed := by
  cases name with
  | none => exact meets_pure hs
  | some name => exact .inl ⟨(), _, rfl, hs.putBuffer name hw⟩

theorem meets_replyMatrix (hs : s.WellFormed) {r : Result (Dense Float)} (hr : r.Gives Dense.Filled) :
    Meets (replyMatrix name r) s Done := by
  refine meets_value hr fun d hd => (meets_keep hd).bind fun m t ht => ?_
  refine (meets_nameMatrix (hs.during ht.1) ?_).bind fun _ u hu => meets_reply hu hd
  rintro _ ⟨⟩
  exact ht.2

theorem meets_replyVector (hs : s.WellFormed) {r : Result (Array Float)} {p : Array Float → Prop}
    (hr : r.Gives p) : Meets (replyVector name r) s Done := by
  refine meets_value hr fun v _ => (meets_alloc v).bind fun b t ht => ?_
  refine (meets_nameBuffer (hs.during ht.1) ?_).bind fun _ u hu => meets_reply hu trivial
  rintro _ ⟨⟩
  exact ht.2

theorem meets_replyFactors (hs : s.WellFormed) {f : StoredFactors} (hf : f.Fills s.store) {seen : List Seen}
    (hseen : ∀ x ∈ seen, x.Sound) : Meets (replyFactors name f seen) s Done := by
  obtain ⟨π, k, hp⟩ := hf.exists_records
  have hsize : f.order.entries.size = f.n + 1 := hf.order_size
  have hrows : ∃ rows, f.order.rows = .ok rows ∧ rows.size = f.n := by
    refine ⟨f.order.entries.pop, if_neg ?_, by rw [Array.size_pop, hsize, Nat.add_sub_cancel]⟩
    simp [← Array.size_eq_zero_iff, hsize]
  refine meets_sound hrows fun rows hrows => ?_
  refine meets_sound (p := fun _ => True) ⟨_, hp.swaps, trivial⟩ fun swaps _ => ?_
  refine (meets_nameFactors hs hf).bind fun _ t ht => ?_
  exact meets_pure ⟨ht, .inl ⟨_, rfl, hf.fits.rows_pos, hrows⟩, hseen⟩

theorem meets_ofFactors (hs : s.WellFormed) {f : String} (hname : s.definesFactors f = true)
    {make : Factors Float → Except Fault (Dense Float)}
    (hmake : ∀ f : Factors Float, f.Filled → ∃ d, make f = .ok d ∧ d.Filled) :
    Meets (ofFactors name f make) s Done :=
  meets_findFactors hs hname fun f hf =>
    meets_get (meets_replyMatrix hs (Result.gives_ofFaulty (hmake (f.view s.store) hf)))

/-! ## Shapes that operations share -/

section

variable {m : MatrixArgument}

/-- One matrix is read and something is computed from it. -/
theorem meets_compute {β : Type} {r : Option (Operand Float) → Result β} {p : Option (Operand Float) → β → Prop}
    {make : β → Answer} (hs : s.WellFormed) (hm : m.isDefined s = true)
    (hr : ∀ o, (∀ d ∈ o, d.Filled) → (r o).Gives (p o)) (hmake : ∀ v, (make v).Sound) :
    Meets (do let o ← m.operand; let v ← value (r o); reply (make v)) s Done :=
  meets_operand hs hm fun o _ _ ht ho _ => meets_value (hr o ho) fun v _ => meets_reply ht (hmake v)

/-- Two matrices are read and something is computed from them. -/
theorem meets_compare {β : Type} {b : MatrixArgument} {r : Option (Operand Float) → Option (Operand Float) → Result β}
    {p : Option (Operand Float) → Option (Operand Float) → β → Prop} {make : β → Answer} (hs : s.WellFormed)
    (hop : (m.isDefined s && b.isDefined s) = true)
    (hr : ∀ x y, (∀ d ∈ x, d.Filled) → (∀ d ∈ y, d.Filled) → (r x y).Gives (p x y))
    (hmake : ∀ v, (make v).Sound) :
    Meets (do let x ← m.operand; let y ← b.operand; let v ← value (r x y); reply (make v)) s Done := by
  obtain ⟨hm, hb⟩ := Bool.and_eq_true_iff.mp hop
  refine meets_operand hs hm fun x t hst ht hx _ => ?_
  refine meets_operand ht ((hst.isDefined b).trans hb) fun y u _ hu hy _ => ?_
  exact meets_value (hr x y hx hy) fun v _ => meets_reply hu (hmake v)

/-- An operand that is there. -/
theorem meets_neededOperand {γ : Type} {Q : γ → Session → Prop} {k : Operand Float → Step γ}
    (hs : s.WellFormed) (hop : (m.isDefined s && m.isThere s) = true)
    (hk : ∀ d t, t.WellFormed → d.Filled → Meets (k d) t Q) :
    Meets (do let o ← m.operand; let d ← needed o; k d) s Q := by
  obtain ⟨hm, hthere⟩ := Bool.and_eq_true_iff.mp hop
  refine meets_operand hs hm fun o t _ ht ho hne => ?_
  exact meets_needed (hne hthere) fun d hd => hk d t ht (ho d hd)

/-- A dense matrix that is there. -/
theorem meets_neededDense {γ : Type} {Q : γ → Session → Prop} {k : StoredMatrix → Step γ}
    (hs : s.WellFormed) (hop : (m.isDense s && m.isThere s) = true)
    (hk : ∀ d t, t.WellFormed → d.Fills t.store → Meets (k d) t Q) :
    Meets (do let o ← m.dense?; let d ← needed o; k d) s Q := by
  obtain ⟨hm, hthere⟩ := Bool.and_eq_true_iff.mp hop
  refine meets_dense hs hm fun o t _ ht ho hne => ?_
  exact meets_needed (hne hthere) fun d hd => hk d t ht (ho d hd)

/-- The store is changed, and one matrix is shown as it stands afterwards. -/
theorem meets_change {β : Type} {f : Store Float → Result β × Store Float} {touched : Nat → Prop}
    {post : β → Store Float → Prop} {make : β → Answer} {d : Option StoredMatrix} (hs : s.WellFormed)
    (hd : ∀ x ∈ d, x.Fills s.store) (hf : s.store.Served touched (f s.store) post)
    (hmake : ∀ v, (make v).Sound) :
    Meets (do let r ← onStore f; let seen ← seeMatrix d; return ⟨ofResult make r, [seen]⟩) s Done := by
  refine (meets_onStore hf).bind fun r t ht => ?_
  refine meets_seeMatrix (fun x hx => (hd x hx).grow ht.1.store) fun seen hseen => ?_
  exact meets_pure ⟨hs.during ht.1, answer_ofResult ht.2 hmake, by simpa using hseen⟩

end

end PivotedLU.Session
