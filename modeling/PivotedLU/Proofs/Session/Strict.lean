import PivotedLU.Proofs.Matrix.Strict
import PivotedLU.Proofs.Session.Reach
import PivotedLU.Session.Run

/-!
# Strict matrices in sessions

Which entries a strict matrix holds depends on who else writes into its block. As long as entries
are only taken over, and all names for a block agree on whether they are checked, no strict matrix
ever holds one that is not finite.
-/

namespace PivotedLU.Session

variable {γ : Type} {s t : Session} {m : StoredMatrix}

/-! ## Clean sessions -/

/-- The matrix is clean as it stands, and every named matrix in its block is strict just if it is. -/
structure Vouches (s : Session) (m : StoredMatrix) : Prop where
  there : m.block < s.store.blocks.size
  clean : (m.view s.store).Clean
  alike : ∀ name d, (name, some (.dense d)) ∈ s.matrices → d.block = m.block → d.strict = m.strict

/-- Every matrix with a name is dense, and the session vouches for it. -/
structure Clean (s : Session) : Prop where
  dense : ∀ name f, (name, some (.foreign f)) ∉ s.matrices
  vouched : ∀ name m, (name, some (.dense m)) ∈ s.matrices → s.Vouches m

theorem clean_empty : Session.empty.Clean := by
  constructor <;> intro _ _ h <;> cases h

theorem Vouches.adds (h : s.Vouches m) (hst : s.Adds t) : t.Vouches m where
  there := Nat.lt_of_lt_of_le h.there hst.grows
  clean := by
    have hdata : (m.view t.store).data = (m.view s.store).data := hst.kept m.block h.there
    intro hstrict
    rw [hdata]
    exact h.clean hstrict
  alike := by
    rw [hst.matrices]
    exact h.alike

namespace Clean

theorem adds (h : s.Clean) (hst : s.Adds t) : t.Clean := by
  constructor
  · rw [hst.matrices]
    exact h.dense
  · rw [hst.matrices]
    exact fun name m hm => (h.vouched name m hm).adds hst

/-- A new matrix has a block that nothing else has a name for. -/
theorem vouches_keep (hs : s.Clean) {d : Dense Float} (hd : d.Clean) :
    Vouches { s with store := (s.store.keep d).2 } (s.store.keep d).1 where
  there := Nat.lt_of_lt_of_eq (Nat.lt_succ_self _) (Array.size_push _).symm
  clean := by
    rw [Store.view_keep]
    exact hd
  alike name e he hblock := by
    have hlt := (hs.vouched name e he).there
    rw [hblock] at hlt
    exact absurd hlt (Nat.lt_irrefl _)

theorem putMatrix (hs : s.Clean) (name : String) {held : Option Held}
    (hheld : ∀ h, held = some h → ∃ d, h = .dense d ∧ s.Vouches d) :
    Clean { s with matrices := s.matrices.put name held } := by
  have hdense : ∀ d, held = some (.dense d) → s.Vouches d := by
    intro d hd
    obtain ⟨_, ⟨⟩, hvouches⟩ := hheld _ hd
    exact hvouches
  have hvouched : ∀ key d, (key, some (.dense d)) ∈ s.matrices.put name held → s.Vouches d := by
    intro key d hd
    rcases Names.mem_put hd with heq | hmem
    · cases heq
      exact hdense d rfl
    · exact hs.vouched key d hmem
  constructor
  · intro key f hf
    rcases Names.mem_put hf with heq | hmem
    · cases heq
      obtain ⟨_, ⟨⟩, -⟩ := hheld _ rfl
    · exact hs.dense key f hmem
  · intro key d hd
    refine ⟨(hvouched key d hd).there, (hvouched key d hd).clean, fun key' e he hblock => ?_⟩
    -- Of two matrices in one block either may be the one that gets the name.
    rcases Names.mem_put he with heq | hmem
    · cases heq
      rcases Names.mem_put hd with heq' | hmem'
      · cases heq'
        rfl
      · exact ((hdense e rfl).alike key d hmem' hblock.symm).symm
    · exact (hvouched key d hd).alike key' e hmem hblock

theorem putBuffer (hs : s.Clean) (name : String) (w : Option Window) :
    Clean { s with buffers := s.buffers.put name w } where
  dense := hs.dense
  vouched key m hm := by
    obtain ⟨hthere, hclean, halike⟩ := hs.vouched key m hm
    exact ⟨hthere, hclean, halike⟩

/-- What is written through one matrix is seen through all that have its block. -/
theorem write (hs : s.Clean) (hm : s.Vouches m) {store : Store Float}
    (hw : s.store.WrittenOnly (· = m.block) store) (hclean : (m.view store).Clean) :
    Clean { s with store } where
  dense := hs.dense
  vouched key d hd := by
    have hvouches := hs.vouched key d hd
    refine ⟨hw.count.symm ▸ hvouches.there, fun hstrict => ?_, hvouches.alike⟩
    by_cases hblock : d.block = m.block
    · have hstrict : m.strict = true := (hm.alike key d hd hblock).symm.trans hstrict
      have hfinite : AllFinite (store.block m.block) := hclean hstrict
      rw [← hblock] at hfinite
      exact hfinite
    · have hkept : store.block d.block = s.store.block d.block := hw.block d.block hblock
      have hfinite : AllFinite (s.store.block d.block) := hvouches.clean hstrict
      rw [← hkept] at hfinite
      exact hfinite

end Clean

/-! ## Reading arguments -/

section

variable {Q : γ → Session → Prop}

theorem ends_cleanMatrix {m : MatrixArgument} {k : Option Held → Step γ} (hs : s.Clean)
    (hk : ∀ held t, t.Clean → (∀ d, held = some (.dense d) → t.Vouches d) →
      (∀ f, held = some (.foreign f) → m = .foreign f) → Ends (k held) t Q) :
    Ends (m.read >>= k) s Q := by
  have hkeep : ∀ d : Dense Float, d.Clean → (∀ f, m ≠ .foreign f) →
      Ends (keep d >>= fun d => k (some (.dense d))) s Q := by
    intro d hd hm
    refine hk _ _ (hs.adds (s.adds_alloc d.data)) ?_ ?_
    · rintro _ ⟨⟩
      exact hs.vouches_keep hd
    · rintro f ⟨⟩
  cases m with
  | absent => exact hk none s hs (by simp) (by simp)
  | named name =>
      refine ends_find fun held hheld => hk held s hs ?_ ?_
      · rintro d rfl
        exact hs.vouched name d hheld
      · rintro f rfl
        exact absurd hheld (hs.dense name f)
  | dense shape data strict =>
      rw [MatrixArgument.read, bind_assoc]
      refine ends_ok fun d hd => ?_
      rw [bind_assoc]
      exact hkeep d (Dense.clean_ofData hd) (by simp)
  | empty =>
      rw [MatrixArgument.read, bind_assoc]
      exact hkeep .empty Dense.clean_empty (by simp)
  | foreign f =>
      refine hk _ s hs (by simp) ?_
      rintro _ ⟨⟩
      rfl

theorem ends_cleanDense {m : MatrixArgument} {k : Option StoredMatrix → Step γ} (hs : s.Clean)
    (hk : ∀ d t, t.Clean → (∀ x ∈ d, t.Vouches x) → Ends (k d) t Q) : Ends (m.dense? >>= k) s Q := by
  rw [MatrixArgument.dense?, bind_assoc]
  refine ends_cleanMatrix hs fun held t ht hdense _ => ?_
  rcases held with _ | (d | f)
  · exact hk none t ht (by simp)
  · refine hk (some d) t ht ?_
    rintro _ ⟨⟩
    exact hdense d rfl
  · rintro _ _ ⟨⟩

end

/-! ## Replies -/

def Answer.Clean : Answer → Prop
  | .matrix (some d) => d.Clean
  | _ => True

def Seen.Clean : Seen → Prop
  | .matrix (some d) => d.Clean
  | _ => True

/-- The matrices that are answered or seen are clean. -/
structure Reply.Clean (r : Reply) : Prop where
  answer : ∀ a, r.answer = .ok a → a.Clean
  seen : ∀ x ∈ r.seen, x.Clean

def LeftClean (r : Reply) (t : Session) : Prop :=
  t.Clean ∧ r.Clean

section

variable {name : Option String}

theorem clean_done {r : Result Unit} {a : Answer} (h : ofResult (fun _ => .done) r = .ok a) : a.Clean := by
  cases r with
  | ok _ =>
      cases h
      trivial
  | error f => cases h

theorem ends_cleanReply (hs : s.Clean) {a : Answer} (ha : a.Clean) : Ends (reply a) s LeftClean := by
  refine ends_pure ⟨hs, ?_, by simp⟩
  rintro _ ⟨⟩
  exact ha

theorem ends_cleanReplyMatrix {r : Result (Dense Float)} (hs : s.Clean) (hr : ∀ d, r = .ok d → d.Clean) :
    Ends (replyMatrix name r) s LeftClean := by
  refine ends_ok fun d hd => ?_
  have hkept := hs.adds (s.adds_alloc d.data)
  cases name with
  | none => exact ends_cleanReply hkept (hr d hd)
  | some name =>
      refine ends_cleanReply (hkept.putMatrix name ?_) (hr d hd)
      rintro _ ⟨⟩
      exact ⟨_, rfl, hs.vouches_keep (hr d hd)⟩

theorem ends_cleanReplyFactors {f : StoredFactors} (hs : s.Clean) :
    Ends (replyFactors name f []) s LeftClean := by
  refine ends_sound fun rows _ => ends_sound fun swaps _ => ?_
  cases name with
  | none => exact ends_cleanReply hs trivial
  | some name =>
      have hnamed : s.Adds { s with factors := s.factors.put name f } :=
        ⟨rfl, rfl, Nat.le_refl _, fun _ _ => rfl⟩
      exact ends_cleanReply (a := .factors f.n rows swaps) (hs.adds hnamed) trivial

end

/-! ## One call -/

def MatrixArgument.isForeign : MatrixArgument → Bool
  | .foreign _ => true
  | _ => false

/-- The operation computes no entry: each is given, taken over from a dense matrix, zero or one.
Factoring a copy leaves no matrix behind. -/
def MatrixOperation.transcribes : MatrixOperation → Bool
  | .zeros _ | .identity _ | .ofData .. | .ofRows .. | .parse .. => true
  | .keep m | .transpose m => !m.isForeign
  | .look _ | .copy _ | .setEntry .. | .transposeInPlace _ => true
  | .factorize .. | .permutation _ => true
  | _ => false

@[inherit_doc MatrixOperation.transcribes]
def Operation.transcribes : Operation → Bool
  | .matrix op => op.transcribes
  | .flat (.keep _) => true
  | _ => false

section

variable {name : Option String}

theorem MatrixOperation.clean_perform {op : MatrixOperation} (hs : s.Clean) (hop : op.transcribes = true) :
    Ends (op.perform name) s LeftClean := by
  cases op with
  | zeros shape => exact ends_cleanReplyMatrix hs fun d hd _ => Dense.allFinite_zeros hd
  | identity n => exact ends_cleanReplyMatrix hs fun d hd => clean_identity hd
  | ofData shape data choices =>
      refine ends_vector_adds fun w t hst _ => ends_settings fun _ => ends_get ?_
      exact ends_cleanReplyMatrix (hs.adds hst) fun d hd => Dense.clean_ofData hd
  | ofRows rows choices =>
      refine ends_readAll_adds fun ws t hst => ends_settings fun _ => ends_get ?_
      exact ends_cleanReplyMatrix (hs.adds hst) fun d hd => Dense.clean_ofRows hd
  | parse text choices =>
      exact ends_settings fun _ => ends_cleanReplyMatrix hs fun d hd => clean_parseRows hd
  | keep m =>
      refine ends_cleanMatrix hs fun held t ht hdense hforeign => ?_
      cases name with
      | none => exact ends_cleanReply ht trivial
      | some name =>
          refine ends_cleanReply (ht.putMatrix name ?_) trivial
          rintro (d | f) rfl
          · exact ⟨d, rfl, hdense d rfl⟩
          · cases hforeign f rfl
            cases hop
  | look m =>
      refine ends_cleanDense hs fun d t ht hd => ends_get (ends_cleanReply ht ?_)
      cases d with
      | none => trivial
      | some d => exact (hd d rfl).clean
  | setEntry m i j v =>
      refine ends_cleanMatrix hs fun held t ht hdense _ => ends_needed fun h hh => ?_
      cases h with
      | dense d =>
          have hd := hdense d hh
          refine ends_stored fun r store hout => ?_
          have hw := d.set_writes i j v t.store
          have hclean := StoredMatrix.clean_set hd.clean i j v
          rw [hout] at hw hclean
          exact ends_pure ⟨ht.write hd hw hclean, fun _ => clean_done, by simp⟩
      | foreign f => exact ends_fail _
  | copy m =>
      refine ends_cleanDense hs fun d t ht hd => ends_needed fun x hx => ends_get ?_
      refine ends_cleanReplyMatrix ht ?_
      rintro _ ⟨⟩
      exact (hd x hx).clean
  | transpose m =>
      rw [perform, MatrixArgument.operand, bind_assoc]
      refine ends_cleanMatrix hs fun held t ht hdense hforeign => ends_get ?_
      refine ends_cleanReplyMatrix ht fun d hd => ?_
      rcases held with _ | (x | f)
      · cases hd
      · exact clean_transpose (hdense x rfl).clean hd
      · cases hforeign f rfl
        cases hop
  | transposeInPlace m =>
      refine ends_cleanDense hs fun d t ht hd => ends_stored fun r store hout => ends_get ?_
      cases d with
      | none =>
          cases hout
          refine ends_pure ⟨ht, ?_, by simp [Seen.Clean]⟩
          rintro _ ⟨⟩
      | some d =>
          have hd := hd d rfl
          have hw := StoredMatrix.transposeInPlace_writes (some d) t.store
          have hclean := StoredMatrix.clean_transposeInPlace hd.clean
          rw [hout] at hw hclean
          have hwritten : t.store.WrittenOnly (· = d.block) store := by
            refine hw.mono ?_
            rintro _ ⟨_, ⟨⟩, rfl⟩
            rfl
          refine ends_pure ⟨ht.write hd hwritten hclean, fun _ => clean_done, ?_⟩
          simpa [Seen.Clean] using hclean
  | factorize m choices =>
      rw [perform, MatrixArgument.operand, bind_assoc]
      refine ends_cleanMatrix hs fun held t ht _ _ => ends_get (ends_settings fun _ => ?_)
      refine ends_value fun f => ends_get ?_
      exact ends_cleanReplyFactors (ht.adds (t.adds_alloc f.lu))
  | permutation f =>
      refine ends_find fun f _ => ends_get (ends_cleanReplyMatrix hs fun d hd => ?_)
      exact Factors.clean_permutation (Result.ok_of_ofFaulty hd)
  | _ => cases hop

theorem Operation.clean_perform {op : Operation} (hs : s.Clean) (hop : op.transcribes = true) :
    Ends (op.perform name) s LeftClean := by
  cases op with
  | matrix op => exact op.clean_perform hs hop
  | flat op =>
      cases op with
      | keep data =>
          refine ends_vector_adds fun w t hst _ => ?_
          cases name with
          | none => exact ends_cleanReply (hs.adds hst) trivial
          | some name => exact ends_cleanReply ((hs.adds hst).putBuffer name w) trivial
      | _ => cases hop
  | kernel op => cases hop
  | order op => cases hop

end

/-- One call, whether it fails or not, leaves a clean session and shows clean matrices. -/
theorem Clean.step (hs : s.Clean) (name : Option String) {op : Operation} (hop : op.transcribes = true) :
    LeftClean (s.step name op).1 (s.step name op).2 := by
  unfold Session.step
  cases hrun : (op.perform name).run s with
  | ok result => exact op.clean_perform hs hop _ _ hrun
  | error e =>
      refine ⟨hs, ?_, by simp⟩
      rintro _ ⟨⟩

/-! ## Whole runs -/

theorem Clean.run {calls : List (Option String × Operation)} (hs : s.Clean)
    (h : ∀ call ∈ calls, call.2.transcribes = true) :
    (s.run calls).2.Clean ∧ ∀ r ∈ (s.run calls).1, r.Clean := by
  induction calls generalizing s with
  | nil => exact ⟨hs, by simp [Session.run]⟩
  | cons call rest ih =>
      obtain ⟨name, op⟩ := call
      obtain ⟨hop, hrest⟩ := List.forall_mem_cons.mp h
      obtain ⟨hstep, hreply⟩ := hs.step name hop
      obtain ⟨hclean, hreplies⟩ := ih hstep hrest
      exact ⟨hclean, List.forall_mem_cons.mpr ⟨hreply, hreplies⟩⟩

/-- Whatever calls of this kind are made from the beginning, and whichever of them fail, after each of
them the strict matrices that have a name hold finite entries only, and so do those that were
answered or shown. -/
theorem strict_matrices_stay_finite (calls : List (Option String × Operation))
    (h : ∀ call ∈ calls, call.2.transcribes = true) :
    (∀ before, before <+: calls → ∀ name m,
      (name, some (.dense m)) ∈ (Session.empty.run before).2.matrices →
        (m.view (Session.empty.run before).2.store).Clean) ∧
    ∀ reply ∈ (Session.empty.run calls).1, reply.Clean := by
  refine ⟨fun before hbefore name m hm => ?_, (clean_empty.run h).2⟩
  have hrun := clean_empty.run fun call hcall => h call (hbefore.subset hcall)
  exact (hrun.1.vouched name m hm).clean

/-- Two names for one strict matrix; a NaN that is written through one of them, one that is read and
one among given rows, all refused; an unchecked matrix with a NaN, its copy and its transpose; the
permutation of factors. -/
def sharedStrictRun : List (Option String × Operation) := [
  (some "a", .matrix (.ofRows [.fresh #[0, 2], .fresh #[3, 4]] [])),
  (some "b", .matrix (.keep (.named "a"))),
  (none, .matrix (.setEntry (.named "b") 0 0 (0 / 0))),
  (none, .matrix (.setEntry (.named "b") 1 1 5)),
  (none, .matrix (.transposeInPlace (.named "a"))),
  (some "n", .matrix (.ofData ⟨1, 2⟩ (.fresh #[0 / 0, 1]) [some (.strict false)])),
  (some "n", .matrix (.transpose (.named "n"))),
  (some "c", .matrix (.ofData ⟨1, 2⟩ (.fresh #[1 / 0, 1]) [])),
  (some "c", .matrix (.parse "[1 nan]" [])),
  (some "f", .matrix (.factorize (.named "b") [])),
  (some "p", .matrix (.permutation "f"))]

/-- The named strict matrices and the bits of their entries. -/
def strictEntries (s : Session) : List (String × List UInt64) :=
  s.matrices.filterMap fun
    | (name, some (.dense m)) =>
      if m.strict then some (name, (s.store.block m.block).toList.map Float.toBits) else none
    | _ => none

theorem strict_matrices_stay_finite_shared :
    (∀ call ∈ sharedStrictRun, call.2.transcribes = true) ∧
    (∀ name m, (name, some (.dense m)) ∈ (Session.empty.run sharedStrictRun).2.matrices →
      (m.view (Session.empty.run sharedStrictRun).2.store).Clean) ∧
    (∀ reply ∈ (Session.empty.run sharedStrictRun).1, reply.Clean) ∧
    (Session.empty.run sharedStrictRun).2.strictEntries = [
      ("p", [0, 1, 1, 0].map Float.toBits), ("b", [0, 3, 2, 5].map Float.toBits),
      ("a", [0, 3, 2, 5].map Float.toBits)] := by
  have h : ∀ call ∈ sharedStrictRun, call.2.transcribes = true := by decide
  obtain ⟨hnamed, hreplies⟩ := strict_matrices_stay_finite sharedStrictRun h
  exact ⟨h, hnamed sharedStrictRun (List.prefix_refl _), hreplies, by decide +kernel⟩

end PivotedLU.Session
