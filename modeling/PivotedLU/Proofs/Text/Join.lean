import Mathlib.Data.List.Infix
import PivotedLU.Proofs.Text.Cut

/-!
# Joined text

What happens to the separators of a joined text when every one of them is replaced by another one, and
how the pieces are found again.
-/

namespace PivotedLU.Text

/-! ## Replacing -/

/-- Every occurrence of the pattern replaced, from left to right. -/
def replaceAll (pattern replacement : List Char) : List Char → List Char
  | [] => []
  | c :: rest =>
    if pattern ≠ [] ∧ pattern <+: c :: rest then
      replacement ++ replaceAll pattern replacement (rest.drop (pattern.length - 1))
    else c :: replaceAll pattern replacement rest
  termination_by s => s.length
  decreasing_by
    · rw [List.length_drop, List.length_cons]
      omega
    · exact Nat.lt_succ_self _

section

variable {p : Char} {ps r : List Char}

theorem replaceAll_pattern (s : List Char) :
    replaceAll (p :: ps) r (p :: ps ++ s) = r ++ replaceAll (p :: ps) r s := by
  rw [List.cons_append, replaceAll, if_pos ⟨List.cons_ne_nil p ps, List.prefix_append (p :: ps) s⟩]
  simp

/-- What has not even the first character of the pattern stays as it is. -/
theorem replaceAll_append {a : List Char} (h : p ∉ a) (s : List Char) :
    replaceAll (p :: ps) r (a ++ s) = a ++ replaceAll (p :: ps) r s := by
  induction a with
  | nil => rfl
  | cons c a ih =>
      rw [List.mem_cons, not_or] at h
      have hne : ¬ (p :: ps ≠ [] ∧ p :: ps <+: c :: (a ++ s)) :=
        fun hpre => h.1 (List.cons_prefix_cons.mp hpre.2).1
      rw [List.cons_append, replaceAll, if_neg hne, ih h.2, List.cons_append]

theorem replaceAll_intercalate_append {pieces : List (List Char)} (h : ∀ piece ∈ pieces, p ∉ piece)
    (s : List Char) : replaceAll (p :: ps) r ((p :: ps).intercalate pieces ++ s) =
      r.intercalate pieces ++ replaceAll (p :: ps) r s := by
  induction pieces with
  | nil => rfl
  | cons piece pieces ih =>
      have hpiece := h piece List.mem_cons_self
      cases pieces with
      | nil => rw [List.intercalate_singleton, List.intercalate_singleton, replaceAll_append hpiece]
      | cons next pieces =>
          have ih := ih fun piece hmem => h piece (List.mem_cons_of_mem _ hmem)
          rw [List.intercalate_cons_cons, List.intercalate_cons_cons, List.append_assoc, List.append_assoc,
            replaceAll_append hpiece, replaceAll_pattern, ih, List.append_assoc, List.append_assoc]

theorem replaceAll_intercalate {pieces : List (List Char)} (h : ∀ piece ∈ pieces, p ∉ piece) :
    replaceAll (p :: ps) r ((p :: ps).intercalate pieces) = r.intercalate pieces := by
  have hnil : replaceAll (p :: ps) r [] = [] := by rw [replaceAll]
  rw [← List.append_nil ((p :: ps).intercalate pieces), replaceAll_intercalate_append h, hnil,
    List.append_nil]

/-- Inner separators are replaced in every row, whatever stands between the rows. -/
theorem replaceAll_rows {sep : List Char} (hsep : p ∉ sep) {rows : List (List (List Char))}
    (h : ∀ row ∈ rows, ∀ piece ∈ row, p ∉ piece) :
    replaceAll (p :: ps) r (sep.intercalate (rows.map (p :: ps).intercalate)) =
      sep.intercalate (rows.map r.intercalate) := by
  induction rows with
  | nil => rw [List.map_nil, List.map_nil, List.intercalate_nil, replaceAll]
  | cons row rows ih =>
      have hrow := h row List.mem_cons_self
      have ih := ih fun row hmem => h row (List.mem_cons_of_mem _ hmem)
      rw [List.map_cons, List.map_cons]
      by_cases hrows : rows = []
      · rw [hrows, List.map_nil, List.map_nil, List.intercalate_singleton, List.intercalate_singleton,
          replaceAll_intercalate hrow]
      · have hmap : ∀ f : List (List Char) → List Char, rows.map f ≠ [] :=
          fun f => mt List.map_eq_nil_iff.mp hrows
        rw [List.intercalate_cons_of_ne_nil (hmap _), List.intercalate_cons_of_ne_nil (hmap _),
          List.append_assoc, List.append_assoc, replaceAll_intercalate_append hrow,
          replaceAll_append hsep, ih]

end

/-! ## Ends and runs of a joined text -/

section

variable {sep : List Char} {pieces : List (List Char)} {c : Char}

theorem mem_intercalate (hc : c ∈ sep.intercalate pieces) : c ∈ sep ∨ ∃ piece ∈ pieces, c ∈ piece := by
  induction pieces with
  | nil => cases hc
  | cons piece rest ih =>
      by_cases hrest : rest = []
      · rw [hrest, List.intercalate_singleton] at hc
        exact .inr ⟨piece, List.mem_cons_self, hc⟩
      · rw [List.intercalate_cons_of_ne_nil hrest, List.mem_append, List.mem_append] at hc
        rcases hc with (hc | hc) | hc
        · exact .inr ⟨piece, List.mem_cons_self, hc⟩
        · exact .inl hc
        · refine (ih hc).imp_right ?_
          rintro ⟨other, hmem, hother⟩
          exact ⟨other, List.mem_cons_of_mem _ hmem, hother⟩

theorem intercalate_ne_nil (hne : pieces ≠ []) (h : ∀ piece ∈ pieces, piece ≠ []) :
    sep.intercalate pieces ≠ [] := by
  obtain ⟨piece, rest, rfl⟩ := List.exists_cons_of_ne_nil hne
  have hpiece := h piece List.mem_cons_self
  cases rest with
  | nil => rwa [List.intercalate_singleton]
  | cons next rest =>
      rw [List.intercalate_cons_cons, List.append_assoc]
      exact List.append_ne_nil_of_left_ne_nil hpiece _

theorem mem_head?_intercalate (h : ∀ piece ∈ pieces, piece ≠ [])
    (hc : c ∈ (sep.intercalate pieces).head?) : ∃ piece ∈ pieces, c ∈ piece.head? := by
  cases pieces with
  | nil => cases hc
  | cons piece rest =>
      refine ⟨piece, List.mem_cons_self, ?_⟩
      cases rest with
      | nil => rwa [List.intercalate_singleton] at hc
      | cons next rest =>
          rw [List.intercalate_cons_cons, List.append_assoc,
            List.head?_append_of_ne_nil _ (h piece List.mem_cons_self)] at hc
          exact hc

theorem mem_getLast?_intercalate (h : ∀ piece ∈ pieces, piece ≠ [])
    (hc : c ∈ (sep.intercalate pieces).getLast?) : ∃ piece ∈ pieces, c ∈ piece.getLast? := by
  induction pieces with
  | nil => cases hc
  | cons piece rest ih =>
      by_cases hrest : rest = []
      · rw [hrest, List.intercalate_singleton] at hc
        exact ⟨piece, List.mem_cons_self, hc⟩
      · have hpieces : ∀ piece ∈ rest, piece ≠ [] := fun piece hmem => h piece (List.mem_cons_of_mem _ hmem)
        rw [List.intercalate_cons_of_ne_nil hrest,
          List.getLast?_append_of_ne_nil _ (intercalate_ne_nil hrest hpieces)] at hc
        obtain ⟨last, hmem, hlast⟩ := ih hpieces hc
        exact ⟨last, List.mem_cons_of_mem _ hmem, hlast⟩

theorem mem_ends_intercalate (h : ∀ piece ∈ pieces, piece ≠ [])
    (hc : c ∈ (sep.intercalate pieces).head? ∨ c ∈ (sep.intercalate pieces).getLast?) :
    ∃ piece ∈ pieces, c ∈ piece.head? ∨ c ∈ piece.getLast? := by
  rcases hc with hc | hc
  · obtain ⟨piece, hmem, hc⟩ := mem_head?_intercalate h hc
    exact ⟨piece, hmem, .inl hc⟩
  · obtain ⟨piece, hmem, hc⟩ := mem_getLast?_intercalate h hc
    exact ⟨piece, hmem, .inr hc⟩

end

theorem runs_intercalate {isSep : Char → Bool} {sep : Char} (hsep : isSep sep = true)
    {tokens : List (List Char)} (h : ∀ token ∈ tokens, token ≠ [] ∧ ∀ c ∈ token, isSep c = false) :
    Runs isSep ([sep].intercalate tokens) tokens := by
  induction tokens with
  | nil => exact .none (by simp)
  | cons token tokens ih =>
      obtain ⟨hne, htoken⟩ := h token List.mem_cons_self
      have ih := ih fun token hmem => h token (List.mem_cons_of_mem _ hmem)
      cases tokens with
      | nil =>
          have hrun := @Runs.run isSep [] token [] [] (by simp) hne htoken (by simp) (.none (by simp))
          rw [List.nil_append, List.append_nil] at hrun
          rwa [List.intercalate_singleton]
      | cons next tokens =>
          rw [List.intercalate_cons_cons, List.append_assoc, List.singleton_append]
          exact @Runs.run isSep [] token _ _ (by simp) hne htoken (by simp [hsep]) (ih.cons_separator hsep)

end PivotedLU.Text
