import Mathlib.Data.List.Forall2
import PivotedLU.Proofs.Matrix.Rows
import PivotedLU.Proofs.Numeral
import PivotedLU.Proofs.Text.Cut
import PivotedLU.Settings

/-!
# The language of row literals

Which rows of tokens a text stands for, apart from how they are found, and what becomes of them: a
matrix, or the one error that counts.
-/

namespace PivotedLU

namespace Literal

/-! ## Tokens -/

/-- `body` is the text without one opening bracket at the start and one closing bracket at the end,
where they are. -/
def Unbrackets (s body : List Char) : Prop :=
  ∃ opening closing, s = opening ++ body ++ closing ∧
    (opening = ['['] ∨ opening = [] ∧ s.head? ≠ some '[') ∧
    (closing = [']'] ∨ closing = [] ∧ body.getLast? ≠ some ']')

theorem unbracket_opened (s : List Char) :
    unbracket ('[' :: s) = if s.getLast? = some ']' then s.dropLast else s := rfl

theorem unbracket_unopened {s : List Char} (h : s.head? ≠ some '[') :
    unbracket s = if s.getLast? = some ']' then s.dropLast else s := by
  unfold unbracket
  dsimp only
  split
  next rest => exact absurd rfl h
  next => simp only

theorem unbrackets_iff {s body : List Char} : Unbrackets s body ↔ body = unbracket s := by
  constructor
  · rintro ⟨opening, closing, rfl, hopening, hclosing⟩
    have hrest : unbracket (opening ++ body ++ closing) =
        if (body ++ closing).getLast? = some ']' then (body ++ closing).dropLast else body ++ closing := by
      rcases hopening with rfl | ⟨rfl, hhead⟩
      · exact unbracket_opened _
      · exact unbracket_unopened hhead
    rw [hrest]
    rcases hclosing with rfl | ⟨rfl, hlast⟩
    · simp
    · rw [List.append_nil, if_neg hlast]
  · rintro rfl
    have hclose : ∀ t : List Char, ∃ closing,
        t = (if t.getLast? = some ']' then t.dropLast else t) ++ closing ∧
        (closing = [']'] ∨ closing = [] ∧
          (if t.getLast? = some ']' then t.dropLast else t).getLast? ≠ some ']') := by
      intro t
      split
      next h => exact ⟨[']'], (List.dropLast_append_getLast? _ h).symm, .inl rfl⟩
      next h => exact ⟨[], (List.append_nil t).symm, .inr ⟨rfl, h⟩⟩
    by_cases hhead : s.head? = some '['
    · obtain ⟨rest, rfl⟩ : ∃ rest, s = '[' :: rest := by
        cases s with
        | nil => cases hhead
        | cons c rest =>
            cases hhead
            exact ⟨rest, rfl⟩
      obtain ⟨closing, hsplit, hclosing⟩ := hclose rest
      refine ⟨['['], closing, ?_, .inl rfl, hclosing⟩
      rw [unbracket_opened, List.append_assoc, ← hsplit]
      rfl
    · obtain ⟨closing, hsplit, hclosing⟩ := hclose s
      rw [unbracket_unopened hhead]
      exact ⟨[], closing, hsplit, .inr ⟨rfl, hhead⟩, hclosing⟩

/-- The rows of tokens that the text stands for. -/
def Written (text : List Char) (rows : List (List (List Char))) : Prop :=
  ∃ core body pieces, Text.Trims text core ∧ Unbrackets core body ∧ Text.Pieces ';' body pieces ∧
    List.Forall₂ (Text.Runs isSeparator) pieces rows

theorem forall₂_eq_iff {β γ : Type} {f : β → γ} {l : List β} {m : List γ} :
    List.Forall₂ (fun a b => b = f a) l m ↔ m = l.map f := by
  induction l generalizing m with
  | nil => exact List.forall₂_nil_left_iff
  | cons a l ih => cases m <;> simp [ih]

theorem forall₂_left {β γ : Type} {R : β → γ → Prop} {l : List β} {m : List γ} {i : Nat} {b : γ}
    (h : List.Forall₂ R l m) (hb : m[i]? = some b) : ∃ a, l[i]? = some a ∧ R a b := by
  obtain ⟨hi, rfl⟩ := List.getElem?_eq_some_iff.mp hb
  have hi' : i < l.length := h.length_eq.symm ▸ hi
  exact ⟨l[i], List.getElem?_eq_getElem hi', h.get hi' hi⟩

theorem forall₂_right {β γ : Type} {R : β → γ → Prop} {l : List β} {m : List γ} {i : Nat} {a : β}
    (h : List.Forall₂ R l m) (ha : l[i]? = some a) : ∃ b, m[i]? = some b ∧ R a b :=
  forall₂_left h.flip ha

theorem written_iff {text : String} {rows : List (List (List Char))} :
    Written text.toList rows ↔ rows = tokens text := by
  have hruns : Text.Runs isSeparator = fun piece row => row = Text.fields isSeparator piece := by
    funext piece row
    exact propext Text.runs_iff
  rw [Written, hruns]
  simp only [forall₂_eq_iff]
  constructor
  · rintro ⟨core, body, pieces, hcore, hbody, hpieces, rfl⟩
    rw [Text.pieces_iff.mp hpieces, unbrackets_iff.mp hbody, Text.trims_iff.mp hcore]
    rfl
  · rintro rfl
    exact ⟨_, _, _, Text.trims_iff.mpr rfl, unbrackets_iff.mpr rfl, Text.pieces_iff.mpr rfl, rfl⟩

theorem Written.ne_nil {text : List Char} {rows : List (List (List Char))} (h : Written text rows) :
    rows ≠ [] := by
  obtain ⟨_, _, pieces, _, _, hpieces, hruns⟩ := h
  rintro rfl
  exact hpieces.nonempty (List.forall₂_nil_right_iff.mp hruns)

/-- A row needs a separator before the next one, and a token at least one character. -/
theorem Written.length_add_le {text : List Char} {rows : List (List (List Char))} {row : List (List Char)}
    (h : Written text rows) (hrow : row ∈ rows) : rows.length + row.length ≤ text.length + 1 := by
  obtain ⟨core, body, pieces, ⟨⟨left, right, rfl, _⟩, _⟩, ⟨opening, closing, rfl, _⟩, hpieces, hrows⟩ := h
  obtain ⟨i, hi⟩ := List.mem_iff_getElem?.mp hrow
  obtain ⟨piece, hpiece, hruns⟩ := forall₂_left hrows hi
  have hle := Text.length_add_le_intercalate ';' (List.mem_of_getElem? hpiece)
  rw [← hpieces.joined] at hle
  have hruns := hruns.length_le
  rw [← hrows.length_eq]
  simp only [List.length_append]
  omega

/-! ## Values -/

section

variable {α : Type} {number : List Char → Option α} {rows : List (List (List Char))} {values : List (List α)}

/-- The tokens are numbers and have these values. -/
def Reads (number : List Char → Option α) (rows : List (List (List Char))) (values : List (List α)) : Prop :=
  List.Forall₂ (List.Forall₂ fun token v => number token = some v) rows values

/-- There is a token in every row, and every token is a number. -/
def Readable (number : List Char → Option α) (rows : List (List (List Char))) : Prop :=
  ∀ row ∈ rows, row ≠ [] ∧ ∀ token ∈ row, ∃ v, number token = some v

theorem readTokens_ok {row : List (List Char)} (h : ∀ token ∈ row, ∃ v, number token = some v) (i j : Nat) :
    ∃ vs, readTokens number i j row = .ok vs ∧ List.Forall₂ (fun token v => number token = some v) row vs := by
  induction row generalizing j with
  | nil => exact ⟨[], rfl, .nil⟩
  | cons token row ih =>
      obtain ⟨v, hv⟩ := h token List.mem_cons_self
      obtain ⟨vs, hvs, hall⟩ := ih (fun token hmem => h token (List.mem_cons_of_mem _ hmem)) (j + 1)
      refine ⟨v :: vs, ?_, .cons hv hall⟩
      simp only [readTokens, hv, hvs]
      rfl

theorem readTokens_malformed {row : List (List Char)} (h : ∃ token ∈ row, number token = none) (i j : Nat) :
    (readTokens number i j row).FailsWith .malformed := by
  induction row generalizing j with
  | nil => simp at h
  | cons token row ih =>
      rw [readTokens]
      split
      next => exact (Result.failsWith_fail _).within _
      next v hv =>
        obtain ⟨other, hmem, hother⟩ := h
        rcases List.mem_cons.mp hmem with rfl | hmem
        · rw [hv] at hother
          cases hother
        · exact (ih ⟨other, hmem, hother⟩ (j + 1)).bind _

theorem readRows_ok (h : Readable number rows) (i : Nat) :
    ∃ values, readRows number i rows = .ok (values.map List.toArray) ∧ Reads number rows values := by
  induction rows generalizing i with
  | nil => exact ⟨[], rfl, .nil⟩
  | cons row rows ih =>
      obtain ⟨hne, hrow⟩ := h row List.mem_cons_self
      obtain ⟨vs, hvs, hall⟩ := readTokens_ok hrow i 0
      obtain ⟨values, hvalues, hreads⟩ := ih (fun row hmem => h row (List.mem_cons_of_mem _ hmem)) (i + 1)
      refine ⟨vs :: values, ?_, .cons hall hreads⟩
      cases row with
      | nil => exact absurd rfl hne
      | cons token row =>
          simp only [readRows, hvs, hvalues]
          rfl

theorem readRows_malformed (h : ¬ Readable number rows) (i : Nat) :
    (readRows number i rows).FailsWith .malformed := by
  induction rows generalizing i with
  | nil => exact absurd (by simp [Readable]) h
  | cons row rows ih =>
      cases row with
      | nil => exact (Result.failsWith_fail _).within _
      | cons token row =>
          by_cases hrow : ∀ t ∈ token :: row, ∃ v, number t = some v
          · have hrest : ¬ Readable number rows := by
              intro hrest
              refine h fun other hmem => ?_
              rcases List.mem_cons.mp hmem with rfl | hmem
              · exact ⟨List.cons_ne_nil _ _, hrow⟩
              · exact hrest other hmem
            obtain ⟨vs, hvs, _⟩ := readTokens_ok hrow i 0
            simp only [readRows, hvs]
            exact (ih hrest (i + 1)).bind _
          · push Not at hrow
            obtain ⟨bad, hmem, hbad⟩ := hrow
            have hnone := Option.eq_none_iff_forall_ne_some.mpr hbad
            exact (readTokens_malformed ⟨bad, hmem, hnone⟩ i 0).bind _

theorem Reads.readable (h : Reads number rows values) {c : Nat} (hc : 0 < c)
    (hrect : ∀ vs ∈ values, vs.length = c) : Readable number rows := by
  intro row hrow
  obtain ⟨i, hi⟩ := List.mem_iff_getElem?.mp hrow
  obtain ⟨vs, hvs, hall⟩ := forall₂_right h hi
  refine ⟨?_, fun token htoken => ?_⟩
  · refine List.length_pos_iff.mp ?_
    rw [hall.length_eq, hrect vs (List.mem_of_getElem? hvs)]
    exact hc
  · obtain ⟨j, hj⟩ := List.mem_iff_getElem?.mp htoken
    obtain ⟨v, _, hv⟩ := forall₂_right hall hj
    exact ⟨v, hv⟩

theorem Reads.unique {values' : List (List α)} (h : Reads number rows values) (h' : Reads number rows values') :
    values = values' := by
  have hunique : Relator.RightUnique fun token v => number token = some v :=
    fun token v v' hv hv' => Option.some.inj (hv.symm.trans hv')
  exact hunique.forall₂.forall₂ h h'

theorem Reads.lengths (h : Reads number rows values) : rows.map List.length = values.map List.length := by
  induction h with
  | nil => rfl
  | cons hrow _ ih => rw [List.map_cons, List.map_cons, ih, hrow.length_eq]

theorem Reads.flatten (h : Reads number rows values) :
    List.Forall₂ (fun token v => number token = some v) rows.flatten values.flatten :=
  List.rel_flatten h

/-! ## Blank literals -/

/-- A token of blanks alone is no number. -/
def RejectsBlanks (number : List Char → Option α) : Prop :=
  ∀ token, token ≠ [] → (∀ c ∈ token, Text.isBlank c = true) → number token = none

theorem blank_of_trim_eq_nil {s : List Char} (h : Text.trim s = []) : ∀ c ∈ s, Text.isBlank c = true := by
  obtain ⟨⟨left, right, hs, hleft, hright⟩, _⟩ := Text.trims_iff.mpr h.symm
  intro c hc
  rw [hs, List.append_nil, List.mem_append] at hc
  rcases hc with hc | hc
  · exact hleft c hc
  · exact hright c hc

/-- Without the early look at blank literals the outcome would be the same. -/
theorem not_readable_of_blank {text : String} (hnumber : RejectsBlanks number) (h : Text.trim (body text) = []) :
    ¬ Readable number (tokens text) := by
  have hblank := blank_of_trim_eq_nil h
  have hpieces : Text.splitAt ';' (body text) = [body text] := by
    refine (Text.pieces_iff.mp ⟨List.cons_ne_nil _ _, (List.intercalate_singleton).symm, ?_⟩).symm
    intro piece hpiece hmem
    rw [List.mem_singleton.mp hpiece] at hmem
    exact absurd (hblank ';' hmem) (by decide)
  intro hread
  obtain ⟨hne, htokens⟩ := hread (Text.fields isSeparator (body text)) (by simp [tokens, hpieces])
  have hruns := Text.runs_fields isSeparator (body text)
  cases hfields : Text.fields isSeparator (body text) with
  | nil => exact hne hfields
  | cons token rest =>
      rw [hfields] at hruns htokens
      generalize hbody : body text = s at hruns
      cases hruns with
      | run _ htoken _ _ _ =>
          obtain ⟨v, hv⟩ := htokens token List.mem_cons_self
          rw [hnumber token htoken fun c hc => hblank c (by simp [hbody, hc])] at hv
          cases hv

/-! ## Shapes -/

theorem fits_of_add_le {r c : Nat} (hr : 0 < r) (hc : 0 < c) (h : r + c ≤ 2 ^ 32) : Fits r c := by
  refine ⟨hr, hc, ?_⟩
  rcases Nat.le_total r (2 ^ 31) with hle | hle
  · calc r * c ≤ 2 ^ 31 * (2 ^ 32 - 1) := Nat.mul_le_mul hle (by omega)
      _ < 2 ^ 63 := by decide
  · calc r * c ≤ (2 ^ 32 - 1) * 2 ^ 31 := Nat.mul_le_mul (by omega) (by omega)
      _ < 2 ^ 63 := by decide

/-- A text of less than `2 ^ 32` characters has no room for more cells than a signed 64-bit number
counts. -/
theorem exists_first {text : String} (hsize : text.toList.length < 2 ^ 32) (hw : Written text.toList rows)
    (hreads : Reads number rows values) (h : Readable number rows) :
    ∃ first rest, values = first :: rest ∧ Fits (rest.length + 1) first.length := by
  cases hreads with
  | nil => exact absurd rfl hw.ne_nil
  | @cons row first rows rest hrow hrest =>
      have hpos := List.length_pos_iff.mpr (h row List.mem_cons_self).1
      have hle := hw.length_add_le List.mem_cons_self
      rw [hrow.length_eq, List.length_cons, hrest.length_eq] at hle
      rw [hrow.length_eq] at hpos
      exact ⟨first, rest, rfl, fits_of_add_le (Nat.succ_pos _) hpos (by omega)⟩

/-- All rows have the same number of tokens. -/
def Rectangular (rows : List (List (List Char))) : Prop :=
  ∃ c, ∀ row ∈ rows, row.length = c

theorem Reads.rectangular_iff {first : List α} {rest : List (List α)}
    (h : Reads number rows (first :: rest)) :
    Rectangular rows ↔ ∀ vs ∈ rest, vs.length = first.length := by
  have hlengths := h.lengths
  have hmem : ∀ c, (∀ row ∈ rows, row.length = c) ↔ ∀ vs ∈ first :: rest, vs.length = c := by
    intro c
    rw [← List.forall_mem_map (P := (· = c)), hlengths, List.forall_mem_map]
  simp only [Rectangular, hmem, List.forall_mem_cons]
  constructor
  · rintro ⟨c, rfl, hrest⟩
    exact hrest
  · intro hrest
    exact ⟨_, rfl, hrest⟩

end

/-! ## Outcomes -/

section

variable {α : Type} [Scalar α] {number : List Char → Option α} {text : String}
  {rows : List (List (List Char))} {values : List (List α)}

theorem readWith_malformed (hw : Written text.toList rows) (h : ¬ Readable number rows) (strict : Bool) :
    (readWith number text strict).FailsWith .malformed := by
  rw [written_iff.mp hw] at h
  refine Result.FailsWith.within _ ?_
  split
  · exact Result.failsWith_fail _
  · exact (readRows_malformed h 0).bind _

theorem readWith_of_reads (hnumber : RejectsBlanks number) (hw : Written text.toList rows)
    (hreads : Reads number rows values) (h : Readable number rows) (strict : Bool) :
    readWith number text strict = Result.of .parse (Dense.ofRows (values.map List.toArray) strict) := by
  have htokens := written_iff.mp hw
  have hblank : Text.trim (body text) ≠ [] :=
    fun hblank => not_readable_of_blank hnumber hblank (htokens ▸ h)
  obtain ⟨values', hvalues, hreads'⟩ := readRows_ok h 0
  rw [readWith, if_neg hblank, ← htokens, hvalues, hreads.unique hreads']
  rfl

theorem readWith_ragged (hnumber : RejectsBlanks number) (hsize : text.toList.length < 2 ^ 32)
    (hw : Written text.toList rows) (h : Readable number rows) (hragged : ¬ Rectangular rows)
    (strict : Bool) : (readWith number text strict).FailsWith .dimensionMismatch := by
  obtain ⟨values, _, hreads⟩ := readRows_ok h 0
  obtain ⟨first, rest, rfl, hfits⟩ := exists_first hsize hw hreads h
  rw [hreads.rectangular_iff] at hragged
  push Not at hragged
  rw [readWith_of_reads hnumber hw hreads h]
  exact (Dense.ofRows_ragged hfits hragged strict).within _

theorem readWith_notFinite (hnumber : RejectsBlanks number) (hsize : text.toList.length < 2 ^ 32)
    (hw : Written text.toList rows) (h : Readable number rows) (hrect : Rectangular rows)
    (hnot : ∃ row ∈ rows, ∃ token ∈ row, ∃ v, number token = some v ∧ Scalar.finite v = false) :
    (readWith number text true).FailsWith .notFinite := by
  obtain ⟨values, _, hreads⟩ := readRows_ok h 0
  obtain ⟨first, rest, rfl, hfits⟩ := exists_first hsize hw hreads h
  rw [readWith_of_reads hnumber hw hreads h]
  refine ((Dense.ofRows_strict hfits (hreads.rectangular_iff.mp hrect)).2 ?_).within _
  obtain ⟨row, hrow, token, htoken, v, hv, hfin⟩ := hnot
  obtain ⟨k, hk⟩ := List.mem_iff_getElem?.mp (List.mem_flatten_of_mem hrow htoken)
  obtain ⟨v', hv', hnum⟩ := forall₂_right hreads.flatten hk
  rw [← Option.some.inj (hv.symm.trans hnum)] at hv'
  exact ⟨v, List.mem_of_getElem? hv', hfin⟩

theorem readWith_fits (hnumber : RejectsBlanks number) (hw : Written text.toList rows)
    (hreads : Reads number rows values) {c : Nat} (hfits : Fits values.length c)
    (hrect : ∀ vs ∈ values, vs.length = c) (hfinite : ∀ v ∈ values.flatten, Scalar.finite v = true) :
    readWith number text true = .ok ⟨values.length, c, values.flatten.toArray, true⟩ := by
  have h := hreads.readable hfits.cols_pos hrect
  cases values with
  | nil => exact absurd hfits.rows_pos (Nat.lt_irrefl 0)
  | cons first rest =>
      obtain ⟨rfl, hrest⟩ := List.forall_mem_cons.mp hrect
      rw [readWith_of_reads hnumber hw hreads h, (Dense.ofRows_strict hfits hrest).1 hfinite]
      rfl

theorem readWith_ok (hnumber : RejectsBlanks number) (hsize : text.toList.length < 2 ^ 32)
    (hw : Written text.toList rows) (hreads : Reads number rows values) {c : Nat} (hc : 0 < c)
    (hrect : ∀ vs ∈ values, vs.length = c) (hfinite : ∀ v ∈ values.flatten, Scalar.finite v = true) :
    readWith number text true = .ok ⟨values.length, c, values.flatten.toArray, true⟩ ∧
      Fits values.length c := by
  have hfits : Fits values.length c := by
    obtain ⟨first, rest, rfl, hfits⟩ := exists_first hsize hw hreads (hreads.readable hc hrect)
    rw [← hrect first List.mem_cons_self]
    exact hfits
  exact ⟨readWith_fits hnumber hw hreads hfits hrect hfinite, hfits⟩

/-- The rows have the same number of tokens, not none, and every token is a finite number. -/
def Acceptable (number : List Char → Option α) (rows : List (List (List Char))) : Prop :=
  ∃ c, 0 < c ∧ ∀ row ∈ rows, row.length = c ∧
    ∀ token ∈ row, ∃ v, number token = some v ∧ Scalar.finite v = true

theorem acceptable_of (hne : rows ≠ []) (h : Readable number rows) (hrect : Rectangular rows)
    (hfinite : ∀ row ∈ rows, ∀ token ∈ row, ∀ v, number token = some v → Scalar.finite v = true) :
    Acceptable number rows := by
  obtain ⟨c, hc⟩ := hrect
  have hpos : 0 < c := by
    obtain ⟨row, hrow⟩ := List.exists_mem_of_ne_nil rows hne
    rw [← hc row hrow]
    exact List.length_pos_iff.mpr (h row hrow).1
  refine ⟨c, hpos, fun row hrow => ⟨hc row hrow, fun token htoken => ?_⟩⟩
  obtain ⟨v, hv⟩ := (h row hrow).2 token htoken
  exact ⟨v, hv, hfinite row hrow token htoken v hv⟩

theorem Acceptable.readable (h : Acceptable number rows) : Readable number rows := by
  obtain ⟨c, hc, hrows⟩ := h
  intro row hrow
  obtain ⟨hlength, hnumbers⟩ := hrows row hrow
  refine ⟨List.length_pos_iff.mp (hlength ▸ hc), fun token htoken => ?_⟩
  obtain ⟨v, hv, _⟩ := hnumbers token htoken
  exact ⟨v, hv⟩

/-- What is acceptable is accepted, and the entries are the values of the tokens. -/
theorem readWith_accepts (hnumber : RejectsBlanks number) (hsize : text.toList.length < 2 ^ 32)
    (hw : Written text.toList rows) (h : Acceptable number rows) :
    ∃ values c, Reads number rows values ∧ (∀ vs ∈ values, vs.length = c) ∧ Fits values.length c ∧
      readWith number text true = .ok ⟨values.length, c, values.flatten.toArray, true⟩ := by
  obtain ⟨values, _, hreads⟩ := readRows_ok h.readable 0
  obtain ⟨c, hc, hrows⟩ := h
  have hlengths : ∀ vs ∈ values, vs.length = c := by
    rw [← List.forall_mem_map (P := (· = c)), ← hreads.lengths, List.forall_mem_map]
    exact fun row hrow => (hrows row hrow).1
  have hfinite : ∀ v ∈ values.flatten, Scalar.finite v = true := by
    intro v hv
    obtain ⟨k, hk⟩ := List.mem_iff_getElem?.mp hv
    obtain ⟨token, htoken, hnum⟩ := forall₂_left hreads.flatten hk
    obtain ⟨row, hrow, hmem⟩ := List.mem_flatten.mp (List.mem_of_getElem? htoken)
    obtain ⟨v', hv', hfin⟩ := (hrows row hrow).2 token hmem
    rw [← Option.some.inj (hv'.symm.trans hnum)]
    exact hfin
  obtain ⟨heq, hfits⟩ := readWith_ok hnumber hsize hw hreads hc hlengths hfinite
  exact ⟨values, c, hreads, hlengths, hfits, heq⟩

/-- What is said of the rows of tokens: whether they make a matrix, which one, and what is wrong with
them otherwise. -/
structure Judged (number : List Char → Option α) (rows : List (List (List Char)))
    (r : Result (Dense α)) : Prop where
  accepted_iff : (∃ d, r = .ok d) ↔ Acceptable number rows
  entries : ∀ d, r = .ok d → d.rows = rows.length ∧ ∀ i row, rows[i]? = some row →
    row.length = d.cols ∧ ∀ j token, row[j]? = some token →
      ∃ v, number token = some v ∧ d.get (Int64.ofNat i) (Int64.ofNat j) = .ok v
  malformed : ¬ Readable number rows → r.FailsWith .malformed
  ragged : Readable number rows → ¬ Rectangular rows → r.FailsWith .dimensionMismatch
  notFinite : Readable number rows → Rectangular rows → ¬ Acceptable number rows → r.FailsWith .notFinite

theorem readWith_judged (hnumber : RejectsBlanks number) (hsize : text.toList.length < 2 ^ 32)
    (hw : Written text.toList rows) : Judged number rows (readWith number text true) := by
  have hmalformed : ¬ Readable number rows → (readWith number text true).FailsWith .malformed :=
    fun h => readWith_malformed hw h true
  have hragged := fun h h' => readWith_ragged hnumber hsize hw h h' true
  have hnotFinite : Readable number rows → Rectangular rows → ¬ Acceptable number rows →
      (readWith number text true).FailsWith .notFinite := by
    intro h hrect hnot
    refine readWith_notFinite hnumber hsize hw h hrect ?_
    by_contra hall
    refine hnot (acceptable_of hw.ne_nil h hrect fun row hrow token htoken v hv => ?_)
    by_contra hfin
    exact hall ⟨row, hrow, token, htoken, v, hv, Bool.eq_false_of_not_eq_true hfin⟩
  have haccepted : ∀ d, readWith number text true = .ok d → Acceptable number rows := by
    intro d hd
    by_contra hnot
    by_cases h : Readable number rows
    · by_cases hrect : Rectangular rows
      · exact (hnotFinite h hrect hnot).ne_ok d hd
      · exact (hragged h hrect).ne_ok d hd
    · exact (hmalformed h).ne_ok d hd
  refine ⟨⟨fun ⟨d, hd⟩ => haccepted d hd, fun h => ?_⟩, fun d hd => ?_, hmalformed, hragged, hnotFinite⟩
  · obtain ⟨values, c, _, _, _, heq⟩ := readWith_accepts hnumber hsize hw h
    exact ⟨_, heq⟩
  · obtain ⟨values, c, hreads, hlengths, hfits, heq⟩ := readWith_accepts hnumber hsize hw (haccepted d hd)
    cases hd.symm.trans heq
    refine ⟨hreads.length_eq.symm, fun i row hrow => ?_⟩
    obtain ⟨vs, hvs, hall⟩ := forall₂_right hreads hrow
    have hlength := hlengths vs (List.mem_of_getElem? hvs)
    refine ⟨hall.length_eq.trans hlength, fun j token htoken => ?_⟩
    obtain ⟨v, hv, hnum⟩ := forall₂_right hall htoken
    have hj : j < c := hlength ▸ (List.getElem?_eq_some_iff.mp hv).1
    refine ⟨v, hnum, Dense.get_ofNat (List.getElem?_eq_some_iff.mp hvs).1 hj hfits ?_⟩
    rw [List.getElem?_toArray, Dense.getElem?_flatten hlengths hj hvs, hv]

end

end Literal

/-! ## Texts -/

theorem length_le_utf8ByteSize (text : String) : text.toList.length ≤ text.utf8ByteSize := by
  have hlist : ∀ cs : List Char, cs.length ≤ (String.ofList cs).utf8ByteSize := by
    intro cs
    induction cs with
    | nil => exact Nat.zero_le _
    | cons c cs ih =>
        have hcons : String.ofList (c :: cs) = String.singleton c ++ String.ofList cs := by
          rw [String.singleton_eq_ofList, ← String.ofList_append]
          rfl
        rw [hcons, String.utf8ByteSize_append, String.utf8ByteSize_singleton, List.length_cons]
        have := c.utf8Size_pos
        omega
  have h := hlist text.toList
  rwa [String.ofList_toList] at h

/-- A text stands for the rows of tokens that its brackets, semicolons and separators make of it, and
what is said of them depends on those rows only. -/
theorem parseRows_judged (text : String) (hsize : text.utf8ByteSize < 2 ^ 32) :
    ∃ rows, (∀ rows', Literal.Written text.toList rows' ↔ rows' = rows) ∧
      Literal.Judged (fun token => (Numeral.float token).toOption) rows
        (parseRows text (Settings.resolve []).strict) := by
  have hlength : text.toList.length < 2 ^ 32 := Nat.lt_of_le_of_lt (length_le_utf8ByteSize text) hsize
  have hblank : Literal.RejectsBlanks fun token => (Numeral.float token).toOption :=
    fun token => Numeral.float_blank
  refine ⟨Literal.tokens text, fun rows => Literal.written_iff, ?_⟩
  exact Literal.readWith_judged hblank hlength (Literal.written_iff.mpr rfl)

/-- A token that is no number counts for more than the ragged row and the NaN before it. -/
theorem parseRows_judged_late_token : "[1; NaN 2; x]".utf8ByteSize < 2 ^ 32 ∧
    Literal.Written "[1; NaN 2; x]".toList [["1".toList], ["NaN".toList, "2".toList], ["x".toList]] ∧
    (parseRows "[1; NaN 2; x]" true).FailsWith .malformed := by
  have hsize : "[1; NaN 2; x]".utf8ByteSize < 2 ^ 32 := by decide
  have htokens : [["1".toList], ["NaN".toList, "2".toList], ["x".toList]] =
      Literal.tokens "[1; NaN 2; x]" := by decide
  have hwritten := Literal.written_iff.mpr htokens
  obtain ⟨rows, hrows, hjudged⟩ := parseRows_judged "[1; NaN 2; x]" hsize
  refine ⟨hsize, hwritten, hjudged.malformed fun h => ?_⟩
  rw [← (hrows _).mp hwritten] at h
  obtain ⟨v, hv⟩ := (h ["x".toList] (by simp)).2 "x".toList (by simp)
  have hx : (Numeral.float "x".toList).toOption = none := by decide
  cases hx.symm.trans hv

end PivotedLU
