import PivotedLU.Proofs.Stored.Filled
import PivotedLU.Session.Argument

/-!
# Steps of a session

What a step of a session leaves behind: a value and a session with some property, or an error of the
domain. One rule for each of the steps that operations are made of.
-/

namespace PivotedLU.Session

variable {β γ : Type} {s t u : Session}

/-- The step ends with a value and a session that have the property, or with an error of the domain:
no fault, no refused setting, and no name that stands for nothing. -/
def Meets (x : Step β) (s : Session) (post : β → Session → Prop) : Prop :=
  (∃ v t, x.run s = .ok (v, t) ∧ post v t) ∨ ∃ e : Error, x.run s = .error (.failed (.error e))

section

variable {x : Step β} {f : β → Step γ} {P : β → Session → Prop} {Q : γ → Session → Prop}

theorem meets_pure {v : β} (h : P v s) : Meets (pure v) s P :=
  .inl ⟨v, s, rfl, h⟩

theorem Meets.bind (h : Meets x s P) (hf : ∀ v t, P v t → Meets (f v) t Q) : Meets (x >>= f) s Q := by
  unfold Meets
  rw [StateT.run_bind]
  rcases h with ⟨v, t, hx, hv⟩ | ⟨e, hx⟩
  · rw [hx]
    exact hf v t hv
  · rw [hx]
    exact .inr ⟨e, rfl⟩

theorem meets_get {f : Session → Step γ} (h : Meets (f s) s Q) : Meets (get >>= f) s Q :=
  h

theorem meets_value {r : Result β} {p : β → Prop} (h : r.Gives p) (hf : ∀ v, p v → Meets (f v) s Q) :
    Meets (value r >>= f) s Q := by
  rcases h with ⟨v, rfl, hv⟩ | ⟨e, rfl⟩
  · exact hf v hv
  · exact .inr ⟨e, rfl⟩

theorem meets_sound {r : Except Fault β} {p : β → Prop} (h : ∃ v, r = .ok v ∧ p v)
    (hf : ∀ v, p v → Meets (f v) s Q) : Meets (sound r >>= f) s Q := by
  obtain ⟨v, rfl, hv⟩ := h
  exact hf v hv

theorem meets_found {names : Session → Names β} {name : String} {v : β}
    (h : (names s).lookup name = some v) (hv : P v s) : Meets (find names name) s P := by
  refine meets_get ?_
  rw [h]
  exact meets_pure hv

theorem meets_find {names : Session → Names β} {name : String} {v : β}
    (h : (names s).lookup name = some v) (hf : Meets (f v) s Q) : Meets (find names name >>= f) s Q := by
  refine (meets_found (P := fun w t => w = v ∧ t = s) h ⟨rfl, rfl⟩).bind ?_
  rintro _ _ ⟨rfl, rfl⟩
  exact hf

end

/-! ## Steps that name nothing -/

/-- The names are as they were, and the store has grown. -/
structure During (s t : Session) : Prop where
  matrices : t.matrices = s.matrices
  factors : t.factors = s.factors
  buffers : t.buffers = s.buffers
  store : s.store.Grows t.store

theorem During.refl (s : Session) : s.During s :=
  ⟨rfl, rfl, rfl, .refl _⟩

theorem During.trans (h : s.During t) (h' : t.During u) : s.During u :=
  ⟨h'.matrices.trans h.matrices, h'.factors.trans h.factors, h'.buffers.trans h.buffers,
    h.store.trans h'.store⟩

theorem during_store {store : Store Float} (h : s.store.Grows store) : s.During { s with store } :=
  ⟨rfl, rfl, rfl, h⟩

theorem meets_alloc (cells : Array Float) : Meets (alloc cells) s fun b t =>
    s.During t ∧ (⟨b, 0, cells.size⟩ : Window).Inside t.store :=
  .inl ⟨_, _, rfl, during_store (s.store.grows_alloc cells), Window.inside_alloc s.store cells⟩

theorem meets_keep {d : Dense Float} (h : d.Filled) : Meets (keep d) s fun m t =>
    s.During t ∧ m.Fills t.store :=
  .inl ⟨_, _, rfl, during_store (s.store.grows_alloc d.data), Store.fills_keep h⟩

/-- An operation on the store hands on its value or its error, with the store it left. -/
theorem meets_onStore {f : Store Float → Result β × Store Float} {touched : Nat → Prop}
    {post : β → Store Float → Prop} (h : s.store.Served touched (f s.store) post) :
    Meets (onStore f) s fun r t => s.During t ∧ r.Gives (post · t.store) := by
  refine meets_get ?_
  have hgrows := h.kept.grows
  have hgives := h.gives
  generalize f s.store = o at hgrows hgives ⊢
  obtain ⟨r, store⟩ := o
  rcases hgives with ⟨v, rfl, hv⟩ | ⟨e, rfl⟩
  · exact .inl ⟨_, _, rfl, during_store hgrows, Result.gives_ok hv⟩
  · exact .inl ⟨_, _, rfl, during_store hgrows, .inr ⟨e, rfl⟩⟩

end PivotedLU.Session
