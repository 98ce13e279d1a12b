import PivotedLU.Proofs.Session.Arguments
import PivotedLU.Proofs.Stored.Frame
import PivotedLU.Session.Buffers
import PivotedLU.Session.Matrices

/-!
# Blocks within reach

Cells can be written through a matrix or a buffer, and through nothing else: factors are only read.
So a call can reach the blocks that matrices and buffers have names for, and those that it makes.
`Moves` says what a call may do to the session it is made in, and each step that calls are made of
keeps to it.
-/

namespace PivotedLU.Session

variable {β γ : Type} {touched : Nat → Prop} {o s t u : Session}

/-- A matrix or a buffer with a name lies in the block. -/
def Reaches (s : Session) (b : Nat) : Prop :=
  (∃ name m, (name, some (.dense m)) ∈ s.matrices ∧ m.block = b) ∨
    ∃ name w, (name, some w) ∈ s.buffers ∧ w.block = b

/-- Everything within reach is there. -/
def Anchored (s : Session) : Prop :=
  ∀ b, s.Reaches b → b < s.store.blocks.size

/-- A block was within reach in `s`, or it was made between `s` and `t`. -/
def Since (s t : Session) (b : Nat) : Prop :=
  s.Reaches b ∨ s.store.blocks.size ≤ b ∧ b < t.store.blocks.size

/-- Blocks are added and none is taken away, what is within reach was so before or is new, and blocks
that are not touched keep their cells. -/
structure Moves (touched : Nat → Prop) (s t : Session) : Prop where
  grows : s.store.blocks.size ≤ t.store.blocks.size
  reached : ∀ b, t.Reaches b → s.Since t b
  kept : ∀ b < s.store.blocks.size, ¬ touched b → t.store.block b = s.store.block b

/-- Names stand for what they stood for, and blocks are added at most. -/
structure Adds (s t : Session) : Prop where
  matrices : t.matrices = s.matrices
  buffers : t.buffers = s.buffers
  grows : s.store.blocks.size ≤ t.store.blocks.size
  kept : ∀ b < s.store.blocks.size, t.store.block b = s.store.block b

theorem Adds.refl (s : Session) : s.Adds s :=
  ⟨rfl, rfl, Nat.le_refl _, fun _ _ => rfl⟩

theorem Adds.trans (h : s.Adds t) (h' : t.Adds u) : s.Adds u where
  matrices := h'.matrices.trans h.matrices
  buffers := h'.buffers.trans h.buffers
  grows := Nat.le_trans h.grows h'.grows
  kept b hb := (h'.kept b (Nat.lt_of_lt_of_le hb h.grows)).trans (h.kept b hb)

theorem adds_alloc (s : Session) (cells : Array Float) :
    s.Adds { s with store := (s.store.alloc cells).2 } := by
  refine ⟨rfl, rfl, ?_, fun b hb => Store.block_alloc_of_lt cells hb⟩
  exact Nat.le_trans (Nat.le_succ _) (Nat.le_of_eq (Array.size_push _).symm)

theorem since_alloc (s : Session) (cells : Array Float) :
    s.Since { s with store := (s.store.alloc cells).2 } s.store.blocks.size :=
  .inr ⟨Nat.le_refl _, Nat.lt_of_lt_of_eq (Nat.lt_succ_self _) (Array.size_push _).symm⟩

theorem Since.mono {b : Nat} (h : s.Since t b) (hle : t.store.blocks.size ≤ u.store.blocks.size) :
    s.Since u b :=
  h.imp_right fun hb => ⟨hb.1, Nat.lt_of_lt_of_le hb.2 hle⟩

theorem Since.reaches {b : Nat} (h : s.Since t b) (hb : b < s.store.blocks.size) : s.Reaches b :=
  h.resolve_right fun hnew => Nat.not_le_of_lt hb hnew.1

namespace Moves

theorem refl (touched : Nat → Prop) (s : Session) : s.Moves touched s :=
  ⟨Nat.le_refl _, fun _ hb => .inl hb, fun _ _ _ => rfl⟩

/-- Of a block that nothing reaches, the second call finds what the first one left. -/
theorem trans (h : s.Moves s.Reaches t) (h' : t.Moves t.Reaches u) : s.Moves s.Reaches u where
  grows := Nat.le_trans h.grows h'.grows
  reached b hb := by
    rcases h'.reached b hb with hb | ⟨hle, hlt⟩
    · exact (h.reached b hb).mono h'.grows
    · exact .inr ⟨Nat.le_trans h.grows hle, hlt⟩
  kept b hlt hb := by
    have hnot : ¬ t.Reaches b := fun hreach => hb ((h.reached b hreach).reaches hlt)
    rw [h'.kept b (Nat.lt_of_lt_of_le hlt h.grows) hnot, h.kept b hlt hb]

theorem anchored (h : s.Moves touched t) (hs : s.Anchored) : t.Anchored := by
  intro b hb
  rcases h.reached b hb with hb | hb
  · exact Nat.lt_of_lt_of_le (hs b hb) h.grows
  · exact hb.2

/-! ## One change -/

theorem adds (h : o.Moves touched s) (hst : s.Adds t) : o.Moves touched t where
  grows := Nat.le_trans h.grows hst.grows
  reached b hb := by
    unfold Reaches at hb
    rw [hst.matrices, hst.buffers] at hb
    exact (h.reached b hb).mono hst.grows
  kept b hlt hb := (hst.kept b (Nat.lt_of_lt_of_le hlt h.grows)).trans (h.kept b hlt hb)

theorem since {b : Nat} (h : o.Moves touched s) (hst : s.Adds t) (hb : s.Since t b) : o.Since t b := by
  rcases hb with hb | ⟨hle, hlt⟩
  · exact (h.reached b hb).mono hst.grows
  · exact .inr ⟨Nat.le_trans h.grows hle, hlt⟩

theorem alloc (h : o.Moves touched s) (cells : Array Float) :
    o.Moves touched { s with store := (s.store.alloc cells).2 } :=
  h.adds (s.adds_alloc cells)

theorem since_alloc (h : o.Moves touched s) (cells : Array Float) :
    o.Since { s with store := (s.store.alloc cells).2 } s.store.blocks.size :=
  h.since (s.adds_alloc cells) (s.since_alloc cells)

theorem write {touched' : Nat → Prop} {store : Store Float} (h : o.Moves touched s)
    (hw : s.store.WrittenOnly touched' store)
    (htouched : ∀ b, touched' b → b < o.store.blocks.size → touched b) :
    o.Moves touched { s with store } where
  grows := hw.count.symm ▸ h.grows
  reached b hb := (h.reached b hb).mono (Nat.le_of_eq hw.count.symm)
  kept b hlt hb := (hw.block b fun hb' => hb (htouched b hb' hlt)).trans (h.kept b hlt hb)

theorem putMatrix (h : o.Moves touched s) (name : String) {m : Option Held}
    (hm : ∀ d, m = some (.dense d) → o.Since s d.block) :
    o.Moves touched { s with matrices := s.matrices.put name m } where
  grows := h.grows
  reached b hb := by
    rcases hb with ⟨key, d, hd, rfl⟩ | hb
    · rcases Names.mem_put hd with heq | hmem
      · cases heq
        exact hm d rfl
      · exact h.reached _ (.inl ⟨key, d, hmem, rfl⟩)
    · exact h.reached b (.inr hb)
  kept := h.kept

theorem putBuffer (h : o.Moves touched s) (name : String) {w : Option Window}
    (hw : ∀ x ∈ w, o.Since s x.block) :
    o.Moves touched { s with buffers := s.buffers.put name w } where
  grows := h.grows
  reached b hb := by
    rcases hb with hb | ⟨key, x, hx, rfl⟩
    · exact h.reached b (.inl hb)
    · rcases Names.mem_put hx with heq | hmem
      · cases heq
        exact hw x rfl
      · exact h.reached _ (.inr ⟨key, x, hmem, rfl⟩)
  kept := h.kept

end Moves

/-! ## Steps -/

/-- If the step comes to an end, its value and the session after it have the property. -/
def Ends (x : Step β) (s : Session) (post : β → Session → Prop) : Prop :=
  ∀ v t, x.run s = .ok (v, t) → post v t

section

variable {k : β → Step γ} {Q : γ → Session → Prop}

theorem ends_pure {v : γ} (h : Q v s) : Ends (pure v) s Q := by
  rintro _ _ ⟨⟩
  exact h

theorem ends_fail (f : Failure) : Ends (fail f) s Q := by
  rintro _ _ ⟨⟩

theorem ends_get {k : Session → Step γ} (hk : Ends (k s) s Q) : Ends (get >>= k) s Q :=
  hk

theorem ends_set {k : PUnit → Step γ} (hk : Ends (k ⟨⟩) t Q) : Ends (set t >>= k) s Q :=
  hk

theorem ends_ok {r : Result β} (hk : ∀ v, r = .ok v → Ends (k v) s Q) : Ends (value r >>= k) s Q := by
  cases r with
  | ok v => exact hk v rfl
  | error f => rintro _ _ ⟨⟩

theorem ends_value {r : Result β} (hk : ∀ v, Ends (k v) s Q) : Ends (value r >>= k) s Q :=
  ends_ok fun v _ => hk v

theorem ends_sound {r : Except Fault β} (hk : ∀ v, r = .ok v → Ends (k v) s Q) :
    Ends (sound r >>= k) s Q := by
  cases r with
  | ok v => exact hk v rfl
  | error f => rintro _ _ ⟨⟩

theorem ends_needed {m : Option β} (hk : ∀ v, m = some v → Ends (k v) s Q) :
    Ends (needed m >>= k) s Q := by
  cases m with
  | some v => exact hk v rfl
  | none => rintro _ _ ⟨⟩

theorem ends_find {names : Session → Names β} {name : String}
    (hk : ∀ v, (name, v) ∈ names s → Ends (k v) s Q) : Ends (find names name >>= k) s Q := by
  cases hv : (names s).lookup name with
  | some v =>
      intro w t h
      refine hk v (Names.mem_of_lookup hv) w t ?_
      rw [← h]
      simp [find, hv]
  | none =>
      intro w t h
      simp [find, hv] at h
      cases h

theorem ends_stored {f : Store Float → Result β × Store Float} {k : Result β → Step γ}
    (hk : ∀ r store, f s.store = (r, store) → Ends (k r) { s with store } Q) :
    Ends (onStore f >>= k) s Q := by
  intro v t hrun
  simp only [onStore, bind_assoc, StateT.run_bind, StateT.run_get, pure_bind] at hrun
  split at hrun
  next => cases hrun
  next r store _ hout => exact hk r store hout v t hrun

theorem ends_onStore {f : Store Float → Result β × Store Float} {k : Result β → Step γ}
    {touched' : Nat → Prop} (h : o.Moves touched s) (hf : s.store.WrittenOnly touched' (f s.store).2)
    (htouched : ∀ b, touched' b → b < o.store.blocks.size → touched b)
    (hk : ∀ r t, o.Moves touched t → Ends (k r) t Q) : Ends (onStore f >>= k) s Q := by
  refine ends_stored fun r store hout => hk r _ ?_
  rw [hout] at hf
  exact h.write hf htouched

theorem ends_runKernel {f : Store Float → Except Fault (Store Float)} {k : Unit → Step γ}
    {touched' : Nat → Prop} (h : o.Moves touched s)
    (hf : ∀ store, f s.store = .ok store → s.store.WrittenOnly touched' store)
    (htouched : ∀ b, touched' b → b < o.store.blocks.size → touched b)
    (hk : ∀ t, o.Moves touched t → Ends (k ()) t Q) : Ends (runKernel f >>= k) s Q := by
  rw [runKernel, bind_assoc]
  refine ends_get ?_
  rw [bind_assoc]
  exact ends_sound fun store hstore => hk _ (h.write (hf store hstore) htouched)

/-- What lies in blocks within reach may be written where those may be touched. -/
theorem touched_of_since {block : β → Nat} {arg : Option β} (htouched : ∀ b, o.Reaches b → touched b)
    (harg : ∀ x ∈ arg, o.Since t (block x)) :
    ∀ b, (∃ x ∈ arg, b = block x) → b < o.store.blocks.size → touched b := by
  rintro _ ⟨x, hx, rfl⟩ hlt
  exact htouched _ ((harg x hx).reaches hlt)

theorem ends_settings {choices : Choices} {k : Settings → Step γ} (hk : ∀ v, Ends (k v) s Q) :
    Ends (settings choices >>= k) s Q :=
  ends_value hk

/-! ## Reading arguments -/

theorem ends_vector_adds {v : VectorArgument} {k : Option Window → Step γ}
    (hk : ∀ w t, s.Adds t → (∀ x ∈ w, s.Since t x.block) → Ends (k w) t Q) :
    Ends (v.read >>= k) s Q := by
  cases v with
  | absent => exact hk none s (.refl s) (by simp)
  | fresh cells =>
      refine hk _ _ (s.adds_alloc cells) ?_
      rintro _ ⟨⟩
      exact s.since_alloc cells
  | named name =>
      refine ends_find fun w hw => hk w s (.refl s) ?_
      rintro x rfl
      exact .inl (.inr ⟨name, x, hw, rfl⟩)
  | part name offset length =>
      rw [VectorArgument.read, bind_assoc]
      refine ends_find fun w hw => ?_
      cases w with
      | none =>
          dsimp only
          split
          · exact hk none s (.refl s) (by simp)
          · rintro _ _ ⟨⟩
      | some w =>
          rw [bind_assoc]
          refine ends_get ?_
          rw [bind_assoc]
          refine ends_sound fun x hx => hk (some x) s (.refl s) ?_
          rintro _ ⟨⟩
          unfold Window.part at hx
          split at hx
          · cases hx
            exact .inl (.inr ⟨name, w, hw, rfl⟩)
          · cases hx

theorem ends_vector {v : VectorArgument} {k : Option Window → Step γ} (h : o.Moves touched s)
    (hk : ∀ w t, o.Moves touched t → (∀ x ∈ w, o.Since t x.block) → Ends (k w) t Q) :
    Ends (v.read >>= k) s Q :=
  ends_vector_adds fun w t hst hw => hk w t (h.adds hst) fun x hx => h.since hst (hw x hx)

theorem ends_order {p : OrderArgument} {k : Option RowOrder → Step γ}
    (hk : ∀ q, Ends (k q) s Q) : Ends (p.read >>= k) s Q := by
  cases p with
  | absent => exact hk none
  | fresh entries => exact hk (some ⟨entries⟩)
  | named name =>
      rw [OrderArgument.read, bind_assoc]
      exact ends_find fun q _ => hk (some q)

theorem ends_readAll_adds {vs : List VectorArgument} {k : List (Option Window) → Step γ}
    (hk : ∀ ws t, s.Adds t → Ends (k ws) t Q) : Ends (vs.mapM VectorArgument.read >>= k) s Q := by
  induction vs generalizing s k with
  | nil => exact hk [] s (.refl s)
  | cons v vs ih =>
      rw [List.mapM_cons, bind_assoc]
      refine ends_vector_adds fun w t hst _ => ?_
      rw [bind_assoc]
      exact ih fun ws u htu => hk (w :: ws) u (hst.trans htu)

theorem ends_readAll {vs : List VectorArgument} {k : List (Option Window) → Step γ}
    (h : o.Moves touched s) (hk : ∀ ws t, o.Moves touched t → Ends (k ws) t Q) :
    Ends (vs.mapM VectorArgument.read >>= k) s Q :=
  ends_readAll_adds fun ws t hst => hk ws t (h.adds hst)

theorem ends_matrix {m : MatrixArgument} {k : Option Held → Step γ} (h : o.Moves touched s)
    (hk : ∀ held t, o.Moves touched t → (∀ d, held = some (.dense d) → o.Since t d.block) →
      Ends (k held) t Q) : Ends (m.read >>= k) s Q := by
  have hkeep : ∀ d : Dense Float, Ends (keep d >>= fun d => k (some (.dense d))) s Q := by
    intro d
    refine hk _ _ (h.alloc d.data) ?_
    rintro _ ⟨⟩
    exact h.since_alloc d.data
  cases m with
  | absent => exact hk none s h (by simp)
  | named name =>
      refine ends_find fun held hheld => hk held s h ?_
      rintro d rfl
      exact h.reached _ (.inl ⟨name, d, hheld, rfl⟩)
  | dense shape data strict =>
      rw [MatrixArgument.read, bind_assoc]
      refine ends_value fun d => ?_
      rw [bind_assoc]
      exact hkeep d
  | empty =>
      rw [MatrixArgument.read, bind_assoc]
      exact hkeep .empty
  | foreign f => exact hk _ s h (by simp)

theorem ends_operand {m : MatrixArgument} {k : Option (Operand Float) → Step γ} (h : o.Moves touched s)
    (hk : ∀ d t, o.Moves touched t → Ends (k d) t Q) : Ends (m.operand >>= k) s Q := by
  rw [MatrixArgument.operand, bind_assoc]
  exact ends_matrix h fun held t ht _ => hk _ t ht

theorem ends_dense {m : MatrixArgument} {k : Option StoredMatrix → Step γ} (h : o.Moves touched s)
    (hk : ∀ d t, o.Moves touched t → (∀ x ∈ d, o.Since t x.block) → Ends (k d) t Q) :
    Ends (m.dense? >>= k) s Q := by
  rw [MatrixArgument.dense?, bind_assoc]
  refine ends_matrix h fun held t ht hsince => ?_
  rcases held with _ | (d | f)
  · exact hk none t ht (by simp)
  · refine hk (some d) t ht ?_
    rintro _ ⟨⟩
    exact hsince d rfl
  · rintro _ _ ⟨⟩

end

/-! ## Replies -/

section

variable {name : Option String}

theorem ends_replyMatrix {r : Result (Dense Float)} (h : o.Moves touched s) :
    Ends (replyMatrix name r) s fun _ => o.Moves touched := by
  refine ends_value fun d => ?_
  have hkept := h.alloc d.data
  cases name with
  | none => exact ends_pure hkept
  | some name =>
      refine ends_pure (hkept.putMatrix name ?_)
      rintro _ ⟨⟩
      exact h.since_alloc d.data

theorem ends_replyVector {r : Result (Array Float)} (h : o.Moves touched s) :
    Ends (replyVector name r) s fun _ => o.Moves touched := by
  refine ends_value fun v => ?_
  have hkept := h.alloc v
  cases name with
  | none => exact ends_pure hkept
  | some name =>
      refine ends_pure (hkept.putBuffer name ?_)
      rintro _ ⟨⟩
      exact h.since_alloc v

/-- Nothing can be written through factors, so that it does not matter which ones get a name. -/
theorem ends_replyFactors {f : StoredFactors} {seen : List Seen} (h : o.Moves touched s) :
    Ends (replyFactors name f seen) s fun _ => o.Moves touched := by
  refine ends_sound fun rows _ => ends_sound fun swaps _ => ?_
  cases name with
  | none => exact ends_pure h
  | some name => exact ends_pure ⟨h.grows, h.reached, h.kept⟩

theorem ends_nameOrder {Q : γ → Session → Prop} {p : RowOrder} {k : Unit → Step γ} (h : o.Moves touched s)
    (hk : ∀ t, o.Moves touched t → Ends (k ()) t Q) : Ends (nameOrder name p >>= k) s Q := by
  cases name with
  | none => exact hk s h
  | some name => exact hk _ ⟨h.grows, h.reached, h.kept⟩

theorem ends_ofFactors {f : String} {make : Factors Float → Except Fault (Dense Float)}
    (h : o.Moves touched s) : Ends (ofFactors name f make) s fun _ => o.Moves touched :=
  ends_find fun _ _ => ends_get (ends_replyMatrix h)

end

end PivotedLU.Session
