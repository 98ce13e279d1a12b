import PivotedLU.Kernel.Substitution
import PivotedLU.Proofs.Accumulation
import PivotedLU.Proofs.Cells
import PivotedLU.Proofs.Loop

/-!
# Substitution on tables

A solution and a column of the inverse go through the same two passes, on different cells. The
passes are named here, and `Substituted` says what the cells hold after both.
-/

namespace PivotedLU.Kernel

variable {σ α : Type} [Scalar α] {a : Reader σ α} {x : Cells σ α} {n : Nat} {ok : σ → Prop}
  {get : σ → Nat → α} {M : Nat → Nat → α}

/-! ## Passes -/

/-- Takes the products of row `i` with the cells `lo`, …, `hi - 1` away from cell `i`. -/
def reduceCell (a : Reader σ α) (n : Nat) (x : Cells σ α) (i lo hi : Nat) (s : σ) : Except Fault σ :=
  Loop.up lo hi (fun k s => do
    let v ← x.read s i
    let u ← a s (i * n + k)
    let known ← x.read s k
    x.write s i (v - u * known)) s

/-- The pass through the unit lower factor; cell `i` starts from `start i`. -/
def forward (a : Reader σ α) (start : Nat → σ → Except Fault α) (n : Nat) (x : Cells σ α) (s : σ) :
    Except Fault σ :=
  Loop.up 0 n (fun i s => do
    let v ← start i s
    let s ← x.write s i v
    reduceCell a n x i 0 i s) s

/-- The pass through the upper factor. -/
def backward (a : Reader σ α) (n : Nat) (x : Cells σ α) (s : σ) : Except Fault σ :=
  Loop.down (fun i s => do
    let s ← reduceCell a n x i (i + 1) n s
    let v ← x.read s i
    let diagonal ← a s (i * n + i)
    x.write s i (v / diagonal)) n s

theorem solve_eq (p : RowOrder) (b : Reader σ α) (s : σ) :
    solve a p b n x s =
      forward a (fun i s => p.entry i >>= b.at s) n x s >>= backward a n x := by
  unfold solve forward
  congr 2
  funext i s
  rw [bind_assoc]
  rfl

theorem invert_eq (p : RowOrder) (s : σ) :
    invert a p n x s = Loop.up 0 n (fun j s =>
      forward a (fun i _ => p.entry i >>= fun source =>
        .ok (if source.toInt = (j : Int) then 1 else 0)) n (x.along (· * n + j)) s >>=
      backward a n (x.along (· * n + j))) s := by
  unfold invert forward
  congr 1
  funext j s
  congr 2
  funext i s
  rw [bind_assoc]
  rfl

/-! ## What the passes leave -/

theorem reduceCell_ok (hx : x.Lawful n ok get) (ha : a.Shows n n ok M) {s : σ} (hs : ok s)
    {i lo hi : Nat} (hi' : i < n) (hle : lo ≤ hi) (hhi : hi ≤ n) (hne : ∀ k, lo ≤ k → k < hi → k ≠ i) :
    ∃ s', reduceCell a n x i lo hi s = .ok s' ∧ ok s' ∧
      get s' = Function.update (get s) i (lessProducts (M i) (get s) lo hi (get s i)) := by
  refine Loop.up_ok (fun k s' => ok s' ∧
      get s' = Function.update (get s) i (lessProducts (M i) (get s) lo k (get s i)))
    hle ⟨hs, by simp⟩ ?_ fun _ h => h
  rintro k s' hlo hk ⟨hs', hget⟩
  have hkn : k < n := by omega
  obtain ⟨s₁, hw, hs₁, hget₁⟩ := hx.write hs' hi' (get s' i - M i k * get s' k)
  refine ⟨s₁, ?_, hs₁, ?_⟩
  · simp only [hx.read hs' hi', ha hs' hi' hkn, hx.read hs' hkn, bind, Except.bind, hw]
  · rw [hget₁, hget, Function.update_self, Function.update_of_ne (hne k hlo hk), Function.update_idem,
      lessProducts_succ hlo]

theorem forward_ok (hx : x.Lawful n ok get) (ha : a.Shows n n ok M)
    {start : Nat → σ → Except Fault α} {b : Nat → α}
    (hb : ∀ s, ok s → ∀ i < n, start i s = .ok (b i)) {s : σ} (hs : ok s) :
    ∃ s', forward a start n x s = .ok s' ∧ ok s' ∧
      ∀ i < n, get s' i = lessProducts (M i) (get s') 0 i (b i) := by
  refine Loop.up_ok (fun i s' => ok s' ∧ ∀ r < i, get s' r = lessProducts (M r) (get s') 0 r (b r))
    (Nat.zero_le _) ⟨hs, fun r hr => by omega⟩ ?_ fun _ h => h
  rintro i s' - hi ⟨hs', hget⟩
  obtain ⟨s₁, hw, hs₁, hget₁⟩ := hx.write hs' hi (b i)
  obtain ⟨s₂, hr, hs₂, hget₂⟩ := reduceCell_ok hx ha hs₁ hi (Nat.zero_le i) (Nat.le_of_lt hi)
    fun k _ hk => Nat.ne_of_lt hk
  have hbefore : ∀ k < i, get s₂ k = get s' k := fun k hk => by
    rw [hget₂, hget₁, Function.update_of_ne (by omega), Function.update_of_ne (by omega)]
  refine ⟨s₂, ?_, hs₂, fun r hr => ?_⟩
  · simp only [hb s' hs' i hi, bind, Except.bind, hw, hr]
  · rcases Nat.lt_succ_iff_lt_or_eq.mp hr with hri | rfl
    · rw [hbefore r hri, hget r hri]
      exact lessProducts_congr (fun k _ hk => ⟨rfl, (hbefore k (by omega)).symm⟩) _
    · have hstart : get s₁ r = b r := by rw [hget₁, Function.update_self]
      have hlast : get s₂ r = lessProducts (M r) (get s₁) 0 r (b r) := by
        rw [hget₂, Function.update_self, hstart]
      rw [hlast]
      refine lessProducts_congr (fun k _ hk => ⟨rfl, ?_⟩) _
      rw [hbefore k hk, hget₁, Function.update_of_ne (by omega)]

theorem backward_ok (hx : x.Lawful n ok get) (ha : a.Shows n n ok M) {s : σ} (hs : ok s) :
    ∃ s', backward a n x s = .ok s' ∧ ok s' ∧
      ∀ i < n, get s' i = lessProducts (M i) (get s') (i + 1) n (get s i) / M i i := by
  -- The cells from `i` on are final, the others not yet touched.
  refine Loop.down_ok (fun i s' => ok s' ∧ (∀ r < i, get s' r = get s r) ∧ ∀ r, i ≤ r → r < n →
      get s' r = lessProducts (M r) (get s') (r + 1) n (get s r) / M r r)
    ⟨hs, fun _ _ => rfl, fun r hr hrn => by omega⟩ ?_ ?_
  · rintro i s' hi ⟨hs', hbefore, hafter⟩
    obtain ⟨s₁, hr, hs₁, hget₁⟩ := reduceCell_ok hx ha hs' hi hi (Nat.le_refl n)
      fun k hk _ => Nat.ne_of_gt hk
    obtain ⟨s₂, hw, hs₂, hget₂⟩ := hx.write hs₁ hi (get s₁ i / M i i)
    have hother : ∀ k, k ≠ i → get s₂ k = get s' k := fun k hk => by
      rw [hget₂, hget₁, Function.update_of_ne hk, Function.update_of_ne hk]
    refine ⟨s₂, ?_, hs₂, fun r hri => ?_, fun r hir hrn => ?_⟩
    · simp only [hr, bind, Except.bind, hx.read hs₁ hi, ha hs₁ hi hi, hw]
    · rw [hother r (by omega), hbefore r (by omega)]
    · have hproducts : ∀ v, lessProducts (M r) (get s₂) (r + 1) n v =
          lessProducts (M r) (get s') (r + 1) n v :=
        lessProducts_congr fun k hk _ => ⟨rfl, hother k (by omega)⟩
      rw [hproducts]
      rcases Nat.lt_or_eq_of_le hir with hir | rfl
      · rw [hother r (by omega), hafter r hir hrn]
      · rw [hget₂, Function.update_self, hget₁, Function.update_self, hbefore i (by omega)]
  · rintro s' ⟨hs', -, hafter⟩
    exact ⟨hs', fun i hi => hafter i (Nat.zero_le i) hi⟩

/-- `x` is what both passes make of the right-hand side `b`, with the factors in the table `M`. -/
def Substituted (n : Nat) (M : Nat → Nat → α) (b x : Nat → α) : Prop :=
  ∃ y : Nat → α, (∀ i < n, y i = lessProducts (M i) y 0 i (b i)) ∧
    ∀ i < n, x i = lessProducts (M i) x (i + 1) n (y i) / M i i

theorem Substituted.congr {b x x' : Nat → α} (h : Substituted n M b x) (hx : ∀ i < n, x' i = x i) :
    Substituted n M b x' := by
  obtain ⟨y, hy, hback⟩ := h
  refine ⟨y, hy, fun i hi => ?_⟩
  rw [hx i hi, hback i hi]
  refine congrArg (· / M i i) (lessProducts_congr (fun k _ hk => ⟨rfl, (hx k hk).symm⟩) _)

/-- Each pass computes its cells one after the other, so it leaves no choice. -/
theorem Substituted.unique {b x x' : Nat → α} (h : Substituted n M b x) (h' : Substituted n M b x') :
    ∀ i < n, x i = x' i := by
  obtain ⟨y, hy, hx⟩ := h
  obtain ⟨y', hy', hx'⟩ := h'
  have hforward : ∀ i < n, y i = y' i := by
    intro i
    induction i using Nat.strongRecOn with
    | _ i ih =>
        intro hi
        rw [hy i hi, hy' i hi]
        exact lessProducts_congr (fun k _ hk => ⟨rfl, ih k hk (by omega)⟩) _
  intro i hi
  induction hd : n - i using Nat.strongRecOn generalizing i with
  | _ d ih =>
      rw [hx i hi, hx' i hi, hforward i hi]
      refine congrArg (· / M i i) (lessProducts_congr (fun k hk hkn => ⟨rfl, ?_⟩) _)
      exact ih (n - k) (by omega) k hkn rfl

theorem passes_ok (hx : x.Lawful n ok get) (ha : a.Shows n n ok M)
    {start : Nat → σ → Except Fault α} {b : Nat → α}
    (hb : ∀ s, ok s → ∀ i < n, start i s = .ok (b i)) {s : σ} (hs : ok s) :
    ∃ s', forward a start n x s >>= backward a n x = .ok s' ∧ ok s' ∧
      Substituted n M b (get s') := by
  obtain ⟨s₁, h₁, hs₁, hforward⟩ := forward_ok hx ha hb hs
  obtain ⟨s₂, h₂, hs₂, hbackward⟩ := backward_ok hx ha hs₁
  refine ⟨s₂, ?_, hs₂, get s₁, hforward, hbackward⟩
  rw [h₁]
  exact h₂

/-! ## Solutions and inverses -/

variable {p : RowOrder} {q : Nat → Nat}

theorem solve_ok (hx : x.Lawful n ok get) (ha : a.Shows n n ok M)
    (hp : ∀ i < n, p.entry i = .ok (Int64.ofNat (q i))) (hq : ∀ i < n, q i < 2 ^ 63)
    {b : Reader σ α} {v : Nat → α} (hb : ∀ s, ok s → ∀ i < n, b s (q i) = .ok (v (q i))) {s : σ}
    (hs : ok s) :
    ∃ s', solve a p b n x s = .ok s' ∧ ok s' ∧ Substituted n M (fun i => v (q i)) (get s') := by
  rw [solve_eq]
  refine passes_ok hx ha (fun s hs i hi => ?_) hs
  rw [hp i hi]
  exact (b.at_ofNat s (hq i hi)).trans (hb s hs i hi)

/-- The inverse is solved for column by column; a pass leaves the other columns alone. -/
theorem invert_ok (hx : x.Lawful (n * n) ok get) (ha : a.Shows n n ok M)
    (hp : ∀ i < n, p.entry i = .ok (Int64.ofNat (q i))) (hq : ∀ i < n, q i < 2 ^ 63) {s : σ}
    (hs : ok s) :
    ∃ s', invert a p n x s = .ok s' ∧ ok s' ∧ ∀ j < n,
      Substituted n M (fun i => if q i = j then 1 else 0) fun i => get s' (i * n + j) := by
  rw [invert_eq]
  refine Loop.up_ok (fun c s' => ok s' ∧ ∀ j < c,
      Substituted n M (fun i => if q i = j then 1 else 0) fun i => get s' (i * n + j))
    (Nat.zero_le _) ⟨hs, fun j hj => by omega⟩ ?_ fun _ h => h
  rintro c s₁ - hc ⟨hs₁, hdone⟩
  have hinj : Function.Injective (· * n + c) := fun i i' h => ((place_inj hc hc).mp h).1
  have hstart : ∀ i < n, (p.entry i >>= fun source =>
      .ok (if source.toInt = (c : Int) then (1 : α) else 0)) = .ok (if q i = c then 1 else 0) := by
    intro i hi
    rw [hp i hi]
    show Except.ok _ = Except.ok _
    rw [Int64.toInt_ofNat_of_lt (hq i hi)]
    simp only [Int.natCast_inj]
  obtain ⟨s₂, h₂, ⟨hs₂, hkept⟩, hsub⟩ := passes_ok (hx.along hinj (fun i hi => place_lt hi hc) s₁)
    (fun h => ha h.1) (fun _ _ => hstart) ⟨hs₁, fun _ _ => rfl⟩
  refine ⟨s₂, h₂, hs₂, fun j hj => ?_⟩
  rcases Nat.lt_succ_iff_lt_or_eq.mp hj with hjc | rfl
  · refine (hdone j hjc).congr fun i hi => hkept _ fun i' _ h => ?_
    exact Nat.ne_of_lt hjc ((place_inj (by omega) hc).mp h).2
  · exact hsub

end PivotedLU.Kernel
