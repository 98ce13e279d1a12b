import Mathlib.Data.List.TakeWhile
import PivotedLU.Text.Blank
import PivotedLU.Text.Fields

/-!
# Cut text

What it means to trim a text, to cut it at a separator and to take its runs, apart from how that is
computed. The meaning leaves one outcome only, and it is the computed one.
-/

namespace PivotedLU.Text

variable {s : List Char}

/-! ## Trimming -/

/-- `core` is the text without the blanks at both ends. -/
structure Trims (s core : List Char) : Prop where
  around : ∃ left right, s = left ++ core ++ right ∧ (∀ c ∈ left, isBlank c = true) ∧
    ∀ c ∈ right, isBlank c = true
  first : ∀ c ∈ core.head?, isBlank c = false
  last : ∀ c ∈ core.getLast?, isBlank c = false

theorem trimRight_append_blanks {right : List Char} (h : ∀ c ∈ right, isBlank c = true) :
    trimRight (s ++ right) = trimRight s := by
  have h' : ∀ c ∈ right.reverse, isBlank c = true := fun c hc => h c (List.mem_reverse.mp hc)
  rw [trimRight, trimRight, List.reverse_append, List.dropWhile_append_of_pos h']

theorem trimRight_eq_self (h : ∀ c ∈ s.getLast?, isBlank c = false) : trimRight s = s := by
  rw [← List.head?_reverse] at h
  rw [trimRight]
  cases hs : s.reverse with
  | nil => rw [List.dropWhile_nil, ← hs, List.reverse_reverse]
  | cons c rest =>
      rw [hs] at h
      rw [List.dropWhile_cons_of_neg (by simp [h c rfl]), ← hs, List.reverse_reverse]

theorem trimRight_prefix (s : List Char) : ∃ right, s = trimRight s ++ right ∧
    ∀ c ∈ right, isBlank c = true := by
  refine ⟨(s.reverse.takeWhile isBlank).reverse, ?_, fun c hc => ?_⟩
  · rw [trimRight, ← List.reverse_append, List.takeWhile_append_dropWhile, List.reverse_reverse]
  · exact List.mem_takeWhile_imp (List.mem_reverse.mp hc)

theorem getLast?_trimRight {c : Char} (h : c ∈ (trimRight s).getLast?) : isBlank c = false := by
  rw [trimRight, List.getLast?_reverse] at h
  have hhead := List.head?_dropWhile_not isBlank s.reverse
  rw [Option.mem_def.mp h] at hhead
  exact hhead

theorem trims_iff {core : List Char} : Trims s core ↔ core = trim s := by
  constructor
  · rintro ⟨⟨left, right, rfl, hleft, hright⟩, hfirst, hlast⟩
    rw [trim, List.append_assoc, List.dropWhile_append_of_pos hleft]
    cases core with
    | nil =>
        have hright' : List.dropWhile isBlank right = [] := List.dropWhile_eq_nil_iff.mpr hright
        rw [List.nil_append, hright']
        rfl
    | cons c rest =>
        have hc : ¬ isBlank c = true := by simp [hfirst c rfl]
        rw [List.cons_append, List.dropWhile_cons_of_neg hc, ← List.cons_append,
          trimRight_append_blanks hright, trimRight_eq_self hlast]
  · rintro rfl
    obtain ⟨right, hsplit, hright⟩ := trimRight_prefix (s.dropWhile isBlank)
    refine ⟨⟨s.takeWhile isBlank, right, ?_, fun c => List.mem_takeWhile_imp, hright⟩, fun c hc => ?_,
      fun c => getLast?_trimRight⟩
    · rw [trim, List.append_assoc, ← hsplit, List.takeWhile_append_dropWhile]
    · -- The first character of what is left stood first before the end was cut off.
      have hhead : (s.dropWhile isBlank).head? = some c := by
        rw [hsplit, List.head?_append]
        exact congrArg (Option.or · _) hc
      have hnot := List.head?_dropWhile_not isBlank s
      rw [hhead] at hnot
      exact hnot

/-! ## Cutting at a separator -/

/-- The pieces between the separators of the text. -/
structure Pieces (sep : Char) (s : List Char) (pieces : List (List Char)) : Prop where
  nonempty : pieces ≠ []
  joined : s = [sep].intercalate pieces
  apart : ∀ piece ∈ pieces, sep ∉ piece

theorem splitAt_eq_splitOn (sep : Char) (s : List Char) : splitAt sep s = s.splitOn sep := by
  induction s with
  | nil => rw [splitAt, List.splitOn_nil]
  | cons c rest ih =>
      rw [splitAt, ih, List.splitOn_cons_eq_if_modifyHead]
      by_cases hc : c = sep
      · rw [if_pos hc, if_pos (beq_iff_eq.mpr hc)]
      · rw [if_neg hc, if_neg (mt beq_iff_eq.mp hc)]
        cases h : rest.splitOn sep with
        | nil => exact absurd h (List.splitOn_ne_nil sep rest)
        | cons piece pieces => rfl

theorem not_mem_of_mem_splitAt {sep : Char} {piece : List Char} (h : piece ∈ splitAt sep s) :
    sep ∉ piece := by
  induction s generalizing piece with
  | nil =>
      rw [splitAt, List.mem_singleton] at h
      simp [h]
  | cons c rest ih =>
      rw [splitAt] at h
      split at h
      · rcases List.mem_cons.mp h with rfl | h
        · exact List.not_mem_nil
        · exact ih h
      next hc =>
        split at h
        next first pieces hrest =>
          rw [hrest] at ih
          rcases List.mem_cons.mp h with rfl | h
          · rw [List.mem_cons, not_or]
            exact ⟨Ne.symm hc, ih List.mem_cons_self⟩
          · exact ih (List.mem_cons_of_mem _ h)
        next =>
          rw [List.mem_singleton] at h
          rw [h, List.mem_singleton]
          exact Ne.symm hc

theorem pieces_iff {sep : Char} {pieces : List (List Char)} :
    Pieces sep s pieces ↔ pieces = splitAt sep s := by
  constructor
  · rintro ⟨hne, rfl, hapart⟩
    rw [splitAt_eq_splitOn]
    exact (List.splitOn_intercalate sep hapart hne).symm
  · rintro rfl
    refine ⟨?_, ?_, fun piece => not_mem_of_mem_splitAt⟩
    · rw [splitAt_eq_splitOn]
      exact List.splitOn_ne_nil sep s
    · rw [splitAt_eq_splitOn]
      exact (List.intercalate_splitOn sep).symm

/-- Every piece but one has a separator. -/
theorem length_add_le_intercalate (sep : Char) {pieces : List (List Char)} {piece : List Char}
    (h : piece ∈ pieces) : pieces.length + piece.length ≤ ([sep].intercalate pieces).length + 1 := by
  induction pieces generalizing piece with
  | nil => cases h
  | cons first pieces ih =>
      cases pieces with
      | nil =>
          rw [List.mem_singleton.mp h, List.intercalate_singleton, List.length_singleton]
          omega
      | cons next pieces =>
          have hnext := ih (List.mem_cons_self : next ∈ next :: pieces)
          rw [List.intercalate_cons_cons, List.length_append, List.length_append, List.length_singleton]
          rw [List.length_cons]
          rcases List.mem_cons.mp h with rfl | h
          · omega
          · have hpiece := ih h
            omega

/-! ## Runs -/

/-- The maximal runs of characters that are no separators, from first to last. -/
inductive Runs (isSep : Char → Bool) : List Char → List (List Char) → Prop
  | none {gap : List Char} : (∀ c ∈ gap, isSep c = true) → Runs isSep gap []
  | run {gap token rest : List Char} {tokens : List (List Char)} : (∀ c ∈ gap, isSep c = true) →
      token ≠ [] → (∀ c ∈ token, isSep c = false) → (∀ c ∈ rest.head?, isSep c = true) →
      Runs isSep rest tokens → Runs isSep (gap ++ token ++ rest) (token :: tokens)

namespace Runs

variable {isSep : Char → Bool} {c : Char} {token : List Char} {tokens : List (List Char)}

theorem cons_separator (hc : isSep c = true) (h : Runs isSep s tokens) : Runs isSep (c :: s) tokens := by
  have hgap : ∀ {gap : List Char}, (∀ d ∈ gap, isSep d = true) → ∀ d ∈ c :: gap, isSep d = true := by
    intro gap hgap d hd
    rcases List.mem_cons.mp hd with rfl | hd
    · exact hc
    · exact hgap d hd
  cases h with
  | none hs => exact .none (hgap hs)
  | @run gap token rest tokens hs hne htoken hrest h => exact .run (hgap hs) hne htoken hrest h

theorem cons_token (hc : isSep c = false) (hs : ∀ d ∈ s.head?, isSep d = true) (h : Runs isSep s tokens) :
    Runs isSep (c :: s) ([c] :: tokens) := by
  have htoken : ∀ d ∈ [c], isSep d = false := by
    intro d hd
    rw [List.mem_singleton.mp hd, hc]
  exact @run isSep [] [c] s tokens (by simp) (List.cons_ne_nil c []) htoken hs h

/-- A run that begins at the second character takes in the first one. -/
theorem cons_longer {d : Char} (hc : isSep c = false) (hd : isSep d = false)
    (h : Runs isSep (d :: s) tokens) :
    ∃ token rest, tokens = token :: rest ∧ Runs isSep (c :: d :: s) ((c :: token) :: rest) := by
  generalize hs : d :: s = u at h
  cases h with
  | none hu =>
      rw [← hs] at hu
      exact absurd (hu d List.mem_cons_self) (by simp [hd])
  | @run gap token rest tokens hgap hne htoken hrest h =>
      have hempty : gap = [] := by
        cases gap with
        | nil => rfl
        | cons e gap =>
            cases hs
            exact absurd (hgap d List.mem_cons_self) (by simp [hd])
      subst hempty
      have hlonger : ∀ e ∈ c :: token, isSep e = false := by
        intro e he
        rcases List.mem_cons.mp he with rfl | he
        · exact hc
        · exact htoken e he
      exact ⟨token, tokens, rfl,
        @run isSep [] (c :: token) rest tokens (by simp) (List.cons_ne_nil c token) hlonger hrest h⟩

theorem length_le (h : Runs isSep s tokens) : tokens.length ≤ s.length := by
  induction h with
  | none => exact Nat.zero_le _
  | run _ hne _ _ _ ih =>
      rw [List.length_append, List.length_append, List.length_cons]
      have := List.length_pos_iff.mpr hne
      omega

end Runs

section

variable (isSep : Char → Bool)

theorem runs_fields (s : List Char) : Runs isSep s (fields isSep s) := by
  fun_induction fields isSep s with
  | case1 => exact .none (by simp)
  | case2 c hc => exact .none (by simpa using hc)
  | case3 c hc => exact Runs.cons_token (by simpa using hc) (by simp) (.none (by simp))
  | case4 c d rest hc ih => exact ih.cons_separator hc
  | case5 c d rest hc hd ih => exact ih.cons_token (by simpa using hc) (by simpa using hd)
  | case6 c d rest hc hd token tokens heq ih =>
      obtain ⟨_, _, hcons, hruns⟩ := ih.cons_longer (by simpa using hc) (by simpa using hd)
      rw [heq, List.cons.injEq] at hcons
      rw [hcons.1, hcons.2]
      exact hruns
  | case7 c d rest hc hd heq ih =>
      obtain ⟨_, _, hcons, _⟩ := ih.cons_longer (by simpa using hc) (by simpa using hd)
      rw [heq] at hcons
      cases hcons

variable {isSep}

theorem fields_gap {gap : List Char} (h : ∀ c ∈ gap, isSep c = true) (s : List Char) :
    fields isSep (gap ++ s) = fields isSep s := by
  induction gap with
  | nil => rfl
  | cons c gap ih =>
      have hc := h c List.mem_cons_self
      rw [← ih fun d hd => h d (List.mem_cons_of_mem c hd), List.cons_append]
      cases gap ++ s with
      | nil => simp [fields, hc]
      | cons d rest => rw [fields, if_pos hc]

theorem fields_token {token rest : List Char} (hne : token ≠ []) (htoken : ∀ c ∈ token, isSep c = false)
    (hrest : ∀ c ∈ rest.head?, isSep c = true) :
    fields isSep (token ++ rest) = token :: fields isSep rest := by
  induction token with
  | nil => exact absurd rfl hne
  | cons c token ih =>
      have hc := htoken c List.mem_cons_self
      cases token with
      | nil =>
          cases rest with
          | nil => simp [fields, hc]
          | cons d rest => simp [fields, hc, hrest d rfl]
      | cons d token =>
          have hd := htoken d (by simp)
          have ih := ih (List.cons_ne_nil d token) fun e he => htoken e (List.mem_cons_of_mem c he)
          rw [List.cons_append, List.cons_append, fields, ← List.cons_append, ih, if_neg (by simp [hc]),
            if_neg (by simp [hd])]

theorem runs_iff {tokens : List (List Char)} : Runs isSep s tokens ↔ tokens = fields isSep s := by
  constructor
  · intro h
    induction h with
    | @none gap hgap => rw [← gap.append_nil, fields_gap hgap, fields]
    | run hgap hne htoken hrest _ ih =>
        rw [List.append_assoc, fields_gap hgap, fields_token hne htoken hrest, ih]
  · rintro rfl
    exact runs_fields isSep s

end

end PivotedLU.Text
