import PivotedLU.Proofs.Session.Steps
import PivotedLU.Session.Operation

/-!
# Arguments of well-formed sessions

A session is well formed when everything it names is filled. An argument that is read in such a
session is filled as well. Reading it fails only where it is not defined: where its name stands for
nothing or for a matrix of the wrong kind, or where it asks for cells beyond the end of a block.
-/

namespace PivotedLU

theorem Names.mem_of_lookup {β : Type} {names : Names β} {name : String} {b : β}
    (h : names.lookup name = some b) : (name, b) ∈ names := by
  induction names with
  | nil => cases h
  | cons entry names ih =>
      obtain ⟨key, b'⟩ := entry
      rw [List.lookup_cons] at h
      split at h
      next heq =>
        cases h
        rw [eq_of_beq heq]
        exact List.mem_cons_self
      next => exact List.mem_cons_of_mem _ (ih h)

theorem Names.lookup_put {β : Type} (names : Names β) (name : String) (b : β) :
    (names.put name b).lookup name = some b := by
  rw [Names.put, List.lookup_cons_self]

theorem Names.mem_put {β : Type} {names : Names β} {name : String} {b : β} {entry : String × β}
    (h : entry ∈ names.put name b) : entry = (name, b) ∨ entry ∈ names := by
  rcases List.mem_cons.mp h with h | h
  · exact .inl h
  · exact .inr (List.mem_filter.mp h).1

namespace Session

variable {s t : Session}

/-- Matrices and factors with a name are filled, and buffers lie within their blocks. -/
structure WellFormed (s : Session) : Prop where
  matrices : ∀ name m, (name, some (.dense m)) ∈ s.matrices → m.Fills s.store
  factors : ∀ name f, (name, f) ∈ s.factors → f.Fills s.store
  buffers : ∀ name w, (name, some w) ∈ s.buffers → w.Inside s.store

theorem wellFormed_empty : Session.empty.WellFormed := by
  refine ⟨?_, ?_, ?_⟩ <;> intro _ _ h <;> cases h

theorem WellFormed.during (h : s.WellFormed) (hst : s.During t) : t.WellFormed where
  matrices name m hm := (h.matrices name m (hst.matrices ▸ hm)).grow hst.store
  factors name f hf := (h.factors name f (hst.factors ▸ hf)).grow hst.store
  buffers name w hw := (h.buffers name w (hst.buffers ▸ hw)).grow hst.store

/-! ## What may be asked for -/

/-- The name stands for something, and a part lies within the block of its buffer. -/
def VectorArgument.isDefined (s : Session) : VectorArgument → Bool
  | .absent | .fresh _ => true
  | .named name => (s.buffers.lookup name).isSome
  | .part name offset length =>
    match s.buffers.lookup name with
    | some (some w) =>
      decide (0 ≤ offset ∧ 0 ≤ length ∧
        w.offset + offset.toNatClampNeg + length.toNatClampNeg ≤ (s.store.block w.block).size)
    | some none => decide (offset = 0 ∧ length = 0)
    | none => false

/-- The name stands for something; a matrix that is written out is not the empty one, which no
operation makes. -/
def MatrixArgument.isDefined (s : Session) : MatrixArgument → Bool
  | .absent | .dense .. | .foreign _ => true
  | .named name => (s.matrices.lookup name).isSome
  | .empty => false

/-- The matrix is defined, and dense if it is there. -/
def MatrixArgument.isDense (s : Session) : MatrixArgument → Bool
  | .absent | .dense .. => true
  | .named name =>
    match s.matrices.lookup name with
    | some none | some (some (.dense _)) => true
    | _ => false
  | .empty | .foreign _ => false

/-- The matrix is there. -/
def MatrixArgument.isThere (s : Session) : MatrixArgument → Bool
  | .absent => false
  | .named name => (s.matrices.lookup name).join.isSome
  | .dense .. | .empty | .foreign _ => true

/-- The name stands for factors. -/
def definesFactors (s : Session) (name : String) : Bool :=
  (s.factors.lookup name).isSome

/-- Every tolerance among the choices is valid. -/
def validChoices (choices : Choices) : Bool :=
  choices.all fun choice => choice.all fun
    | .pivotTolerance tol => Setting.isTolerance tol
    | .epsilon eps => Setting.isTolerance eps
    | .strict _ => true

theorem During.isDense (h : s.During t) (m : MatrixArgument) : m.isDense t = m.isDense s := by
  cases m with
  | named name =>
      simp only [MatrixArgument.isDense]
      rw [h.matrices]
  | _ => rfl

theorem During.isDefined (h : s.During t) (m : MatrixArgument) : m.isDefined t = m.isDefined s := by
  cases m with
  | named name =>
      simp only [MatrixArgument.isDefined]
      rw [h.matrices]
  | _ => rfl

theorem During.definesFactors (h : s.During t) (name : String) :
    t.definesFactors name = s.definesFactors name := by
  rw [Session.definesFactors, Session.definesFactors, h.factors]

theorem During.vector_isDefined (h : s.During t) {v : VectorArgument} (hv : v.isDefined s = true) :
    v.isDefined t = true := by
  cases v with
  | absent => rfl
  | fresh cells => rfl
  | named name =>
      simp only [VectorArgument.isDefined] at hv ⊢
      rwa [h.buffers]
  | part name offset length =>
      simp only [VectorArgument.isDefined] at hv ⊢
      rw [h.buffers]
      split at hv
      next w hw =>
        obtain ⟨hoffset, hlength, hroom⟩ := of_decide_eq_true hv
        refine decide_eq_true ⟨hoffset, hlength, ?_⟩
        by_cases hb : 0 < (s.store.block w.block).size
        · rwa [h.store _ hb]
        · omega
      next => exact hv
      next => cases hv

theorem MatrixArgument.isDefined_of_isDense {m : MatrixArgument} (h : m.isDense s = true) :
    m.isDefined s = true := by
  cases m with
  | named name =>
      simp only [isDense] at h
      rw [isDefined]
      split at h
      next hheld => rw [hheld, Option.isSome_some]
      next hheld => rw [hheld, Option.isSome_some]
      next => cases h
  | empty => cases h
  | _ => rfl

/-! ## Reading arguments -/

theorem VectorArgument.meets_read (hs : s.WellFormed) {v : VectorArgument} (hv : v.isDefined s = true) :
    Meets v.read s fun w t => s.During t ∧ ∀ x ∈ w, x.Inside t.store := by
  cases v with
  | absent => exact meets_pure ⟨.refl s, by simp⟩
  | fresh cells =>
      refine (meets_alloc cells).bind fun b t ht => meets_pure ⟨ht.1, ?_⟩
      rintro _ ⟨⟩
      exact ht.2
  | named name =>
      obtain ⟨w, hw⟩ := Option.isSome_iff_exists.mp hv
      refine meets_found hw ⟨.refl s, ?_⟩
      rintro x rfl
      exact hs.buffers name x (Names.mem_of_lookup hw)
  | part name offset length =>
      rw [isDefined] at hv
      cases hw : s.buffers.lookup name with
      | none =>
          rw [hw] at hv
          cases hv
      | some w =>
          rw [hw] at hv
          refine meets_find hw ?_
          cases w with
          | none =>
              have hzero := of_decide_eq_true hv
              dsimp only
              rw [if_pos hzero]
              exact meets_pure ⟨.refl _, by simp⟩
          | some w =>
              have hbounds := of_decide_eq_true hv
              refine meets_get (meets_sound ⟨_, if_pos hbounds, rfl⟩ ?_)
              rintro _ rfl
              refine meets_pure ⟨.refl _, ?_⟩
              rintro _ ⟨⟩
              exact hbounds.2.2

theorem meets_readAll (hs : s.WellFormed) {vs : List VectorArgument}
    (hvs : vs.all (·.isDefined s) = true) : Meets (vs.mapM VectorArgument.read) s fun _ t => s.During t := by
  induction vs generalizing s with
  | nil => exact meets_pure (.refl s)
  | cons v vs ih =>
      obtain ⟨hv, hvs⟩ := Bool.and_eq_true_iff.mp hvs
      rw [List.mapM_cons]
      refine (v.meets_read hs hv).bind fun w t ht => ?_
      have hrest : vs.all (·.isDefined t) = true := by
        rw [List.all_eq_true] at hvs ⊢
        exact fun v hv => ht.1.vector_isDefined (hvs v hv)
      exact (ih (hs.during ht.1) hrest).bind fun ws u hu => meets_pure (ht.1.trans hu)

/-- What reading a matrix gives: a filled one, of the kind that was asked for. -/
structure Found (m : MatrixArgument) (s : Session) (held : Option Held) (t : Session) : Prop where
  during : s.During t
  filled : ∀ h ∈ held, (h.operand t.store).Filled
  dense : m.isDense s = true → ∀ f, held ≠ some (.foreign f)
  there : m.isThere s = true → held ≠ none

theorem MatrixArgument.meets_read (hs : s.WellFormed) {m : MatrixArgument} (hm : m.isDefined s = true) :
    Meets m.read s (Found m s) := by
  cases m with
  | absent => exact meets_pure ⟨.refl s, by simp, by simp, by simp [isThere]⟩
  | named name =>
      obtain ⟨held, hheld⟩ := Option.isSome_iff_exists.mp hm
      refine meets_found hheld ⟨.refl s, ?_, ?_, ?_⟩
      · rintro h rfl
        cases h with
        | dense m => exact hs.matrices name m (Names.mem_of_lookup hheld)
        | foreign f => trivial
      · rintro h f rfl
        simp [isDense, hheld] at h
      · rintro h rfl
        simp [isThere, hheld] at h
  | dense shape data strict =>
      refine meets_value (Dense.ofData_gives shape data strict) fun d hd => ?_
      refine (meets_keep hd).bind fun m u hu => meets_pure ⟨hu.1, ?_, by simp, by simp⟩
      rintro _ ⟨⟩
      exact hu.2
  | empty => cases hm
  | foreign f =>
      refine meets_pure ⟨.refl s, ?_, ?_, by simp⟩
      · rintro _ ⟨⟩
        trivial
      · intro h
        cases h

section

variable {γ : Type} {Q : γ → Session → Prop}

theorem meets_vector {k : Option Window → Step γ} (hs : s.WellFormed) {v : VectorArgument}
    (hv : v.isDefined s = true)
    (hk : ∀ w t, s.During t → t.WellFormed → (∀ x ∈ w, x.Inside t.store) → Meets (k w) t Q) :
    Meets (v.read >>= k) s Q :=
  (v.meets_read hs hv).bind fun w t ht => hk w t ht.1 (hs.during ht.1) ht.2

theorem meets_operand {k : Option (Operand Float) → Step γ} (hs : s.WellFormed) {m : MatrixArgument}
    (hm : m.isDefined s = true)
    (hk : ∀ o t, s.During t → t.WellFormed → (∀ d ∈ o, d.Filled) → (m.isThere s = true → o ≠ none) →
      Meets (k o) t Q) : Meets (m.operand >>= k) s Q := by
  rw [MatrixArgument.operand, bind_assoc]
  refine (m.meets_read hs hm).bind fun held t ht => hk _ t ht.during (hs.during ht.during) ?_ fun hthere => ?_
  · intro d hd
    obtain ⟨h, hh, rfl⟩ := Option.map_eq_some_iff.mp hd
    exact ht.filled h hh
  · rw [Ne, Option.map_eq_none_iff]
    exact ht.there hthere

theorem meets_dense {k : Option StoredMatrix → Step γ} (hs : s.WellFormed) {m : MatrixArgument}
    (hm : m.isDense s = true)
    (hk : ∀ d t, s.During t → t.WellFormed → (∀ x ∈ d, x.Fills t.store) → (m.isThere s = true → d ≠ none) →
      Meets (k d) t Q) : Meets (m.dense? >>= k) s Q := by
  rw [MatrixArgument.dense?, bind_assoc]
  refine (m.meets_read hs (MatrixArgument.isDefined_of_isDense hm)).bind fun held t ht => ?_
  have hwf := hs.during ht.during
  match held, ht with
  | none, ht => exact hk none t ht.during hwf (by simp) fun hthere => absurd rfl (ht.there hthere)
  | some (.dense d), ht =>
      refine hk (some d) t ht.during hwf ?_ (by simp)
      rintro _ ⟨⟩
      exact ht.filled _ rfl
  | some (.foreign f), ht => exact absurd rfl (ht.dense hm f)

theorem meets_needed {β : Type} {o : Option β} {k : β → Step γ} (ho : o ≠ none)
    (hk : ∀ v, o = some v → Meets (k v) s Q) : Meets (needed o >>= k) s Q := by
  cases o with
  | none => exact absurd rfl ho
  | some v => exact hk v rfl

theorem meets_findFactors {name : String} {k : StoredFactors → Step γ} (hs : s.WellFormed)
    (hname : s.definesFactors name = true) (hk : ∀ f, f.Fills s.store → Meets (k f) s Q) :
    Meets (find Session.factors name >>= k) s Q := by
  obtain ⟨f, hf⟩ := Option.isSome_iff_exists.mp hname
  exact meets_find hf (hk f (hs.factors name f (Names.mem_of_lookup hf)))

end

theorem check_of_validChoices {choices : Choices} (h : validChoices choices = true) :
    Settings.check choices = .ok () := by
  induction choices with
  | nil => rfl
  | cons choice rest ih =>
      obtain ⟨hchoice, hrest⟩ := Bool.and_eq_true_iff.mp h
      cases choice with
      | none => exact ih hrest
      | some setting =>
          have hsetting : setting.check = .ok () := by
            cases setting with
            | pivotTolerance tol => exact if_pos hchoice
            | epsilon eps => exact if_pos hchoice
            | strict on => rfl
          rw [Settings.check, hsetting]
          exact ih hrest

theorem meets_settings {γ : Type} {f : Settings → Step γ} {Q : γ → Session → Prop} {choices : Choices}
    (h : validChoices choices = true) (hf : ∀ v, Meets (f v) s Q) : Meets (settings choices >>= f) s Q := by
  refine meets_value (p := fun _ => True) (.inl ⟨Settings.resolve choices, ?_, trivial⟩) fun v _ => hf v
  rw [Settings.make, check_of_validChoices h]

end Session

end PivotedLU
