import PivotedLU.Matrix.Text
import PivotedLU.Proofs.Decimal.Places
import PivotedLU.Proofs.Decimal.Positional
import PivotedLU.Proofs.Literal
import PivotedLU.Proofs.Text.Join

/-!
# Typeset matrices read back

With all their digits, the entries of a typeset matrix are those of the matrix. With the marks of a
row literal in the place of the typeset ones, it is read back. Entries that are rounded are read back
as numbers that are not changed by rounding again.
-/

namespace PivotedLU

/-! ## Entries row by row -/

section

variable {values : List (List Float)} {cols : Nat}

theorem read_flatten (hrect : ∀ vs ∈ values, vs.length = cols) {i j : Nat} {vs : List Float}
    (hvs : values[i]? = some vs) (hj : j < vs.length) :
    Cells.array.read values.flatten.toArray (i * cols + j) = .ok vs[j] := by
  have hv := Dense.getElem?_flatten hrect (hrect vs (List.mem_of_getElem? hvs) ▸ hj) hvs
  rw [List.getElem?_eq_getElem hj] at hv
  obtain ⟨hlt, hget⟩ := List.getElem?_eq_some_iff.mp hv
  rw [← hget]
  exact dif_pos hlt

theorem rowTexts_eq (entry : Float → String) (hrect : ∀ vs ∈ values, vs.length = cols) {i : Nat}
    {vs : List Float} (hvs : values[i]? = some vs) :
    rowTexts entry cols values.flatten.toArray i = .ok (vs.map entry) := by
  have hlength := hrect vs (List.mem_of_getElem? hvs)
  have hloop : ∃ texts, rowTexts entry cols values.flatten.toArray i = .ok texts ∧ texts = vs.map entry := by
    refine bind_ok (Loop.up_ok (fun j texts => texts.reverse = (vs.take j).map entry) (Nat.zero_le cols)
      rfl (fun j texts _ hj htexts => ?_) fun _ h => h) fun texts htexts => ⟨texts.reverse, rfl, ?_⟩
    · rw [← hlength] at hj
      refine ⟨entry vs[j] :: texts, ?_, ?_⟩
      · rw [read_flatten hrect hvs hj]
        rfl
      · rw [List.reverse_cons, htexts, List.take_succ_eq_append_getElem hj, List.map_append,
          List.map_singleton]
    · rw [htexts, List.take_of_length_le (Nat.le_of_eq hlength)]
  obtain ⟨_, hrow, rfl⟩ := hloop
  exact hrow

theorem entryTexts_eq (entry : Float → String) (hrect : ∀ vs ∈ values, vs.length = cols) :
    entryTexts entry values.length cols values.flatten.toArray = .ok (values.map (List.map entry)) := by
  have hloop : ∃ texts, entryTexts entry values.length cols values.flatten.toArray = .ok texts ∧
      texts = values.map (List.map entry) := by
    refine bind_ok (Loop.up_ok (fun i texts => texts.reverse = (values.take i).map (List.map entry))
      (Nat.zero_le values.length) rfl (fun i texts _ hi htexts => ?_) fun _ h => h)
        fun texts htexts => ⟨texts.reverse, rfl, ?_⟩
    · refine ⟨values[i].map entry :: texts, ?_, ?_⟩
      · rw [rowTexts_eq entry hrect (List.getElem?_eq_getElem hi)]
        rfl
      · rw [List.reverse_cons, htexts, List.take_succ_eq_append_getElem hi, List.map_append,
          List.map_singleton]
    · rw [htexts, List.take_length]
  obtain ⟨_, htexts, rfl⟩ := hloop
  exact htexts

end

/-! ## Joined rows -/

namespace Literal

/-- A token made of characters from `-` to `9`, which no mark of a literal is. -/
structure Unmarked (token : List Char) : Prop where
  nonempty : token ≠ []
  range : ∀ c ∈ token, 45 ≤ c.toNat ∧ c.toNat ≤ 57

theorem Unmarked.not_mem {token : List Char} (h : Unmarked token) {mark : Char}
    (hmark : mark.toNat < 45 ∨ 57 < mark.toNat) : mark ∉ token := by
  intro hmem
  have := h.range mark hmem
  omega

theorem isBlank_of_range {c : Char} (h : 45 ≤ c.toNat ∧ c.toNat ≤ 57) : Text.isBlank c = false := by
  refine Bool.eq_false_iff.mpr fun hblank => ?_
  have := Text.toNat_of_isBlank hblank
  omega

theorem isSeparator_of_range {c : Char} (h : 45 ≤ c.toNat ∧ c.toNat ≤ 57) : isSeparator c = false := by
  have hne : ∀ mark : Char, mark.toNat < 45 → c ≠ mark := by
    rintro mark hmark rfl
    omega
  simp [isSeparator, hne]

section

variable {rows : List (List (List Char))}

theorem joined_ends (h : ∀ row ∈ rows, row ≠ [] ∧ ∀ token ∈ row, Unmarked token) {c : Char}
    (hc : c ∈ ([';'].intercalate (rows.map [' '].intercalate)).head? ∨
      c ∈ ([';'].intercalate (rows.map [' '].intercalate)).getLast?) : 45 ≤ c.toNat ∧ c.toNat ≤ 57 := by
  have htokens : ∀ row ∈ rows, ∀ token ∈ row, token ≠ [] :=
    fun row hrow token htoken => ((h row hrow).2 token htoken).nonempty
  have hrows : ∀ piece ∈ rows.map [' '].intercalate, piece ≠ [] :=
    List.forall_mem_map.mpr fun row hrow => Text.intercalate_ne_nil (h row hrow).1 (htokens row hrow)
  obtain ⟨piece, hpiece, hc⟩ := Text.mem_ends_intercalate hrows hc
  obtain ⟨row, hrow, rfl⟩ := List.mem_map.mp hpiece
  obtain ⟨token, htoken, hc⟩ := Text.mem_ends_intercalate (htokens row hrow) hc
  have hmem : c ∈ token := hc.elim List.mem_of_mem_head? List.mem_of_mem_getLast?
  exact ((h row hrow).2 token htoken).range c hmem

/-- The marks between rows and tokens are enough to tell them apart. -/
theorem written_joined (hne : rows ≠ []) (h : ∀ row ∈ rows, row ≠ [] ∧ ∀ token ∈ row, Unmarked token) :
    Written ([';'].intercalate (rows.map [' '].intercalate)) rows := by
  have hends : ∀ {c : Char}, _ → 45 ≤ c.toNat ∧ c.toNat ≤ 57 := joined_ends h
  generalize htext : [';'].intercalate (rows.map [' '].intercalate) = text at hends
  have htrims : Text.Trims text text := by
    refine ⟨⟨[], [], by rw [List.nil_append, List.append_nil], by simp, by simp⟩, ?_, ?_⟩
    · exact fun c hc => isBlank_of_range (hends (.inl hc))
    · exact fun c hc => isBlank_of_range (hends (.inr hc))
  have hunbrackets : Unbrackets text text := by
    refine ⟨[], [], by rw [List.nil_append, List.append_nil], .inr ⟨rfl, ?_⟩, .inr ⟨rfl, ?_⟩⟩
    · exact fun hc => absurd (hends (.inl hc)) (by decide)
    · exact fun hc => absurd (hends (.inr hc)) (by decide)
  have hpieces : Text.Pieces ';' text (rows.map [' '].intercalate) := by
    refine ⟨mt List.map_eq_nil_iff.mp hne, htext.symm, List.forall_mem_map.mpr fun row hrow hmem => ?_⟩
    rcases Text.mem_intercalate hmem with hmem | ⟨token, htoken, hmem⟩
    · exact absurd (List.mem_singleton.mp hmem) (by decide)
    · exact ((h row hrow).2 token htoken).not_mem (by decide) hmem
  refine ⟨text, text, _, htrims, hunbrackets, hpieces, ?_⟩
  rw [List.forall₂_map_left_iff]
  refine List.forall₂_same.mpr fun row hrow => Text.runs_intercalate rfl fun token htoken => ?_
  have htoken := (h row hrow).2 token htoken
  exact ⟨htoken.nonempty, fun c hc => isSeparator_of_range (htoken.range c hc)⟩

end

/-- What stands before a typeset matrix. -/
def opening : String :=
  "\\begin" ++ Text.braced "pmatrix"

/-- What stands after a typeset matrix. -/
def closing : String :=
  "\\end" ++ Text.braced "pmatrix"

/-- The row literal in a typeset matrix: without the environment, with `;` for the line ends and a
blank for the column marks. -/
def ofLatex (text : String) : String :=
  let opened := (text.toList.dropPrefix? opening.toList).getD text.toList
  let inner := (opened.dropSuffix? closing.toList).getD opened
  String.ofList
    (Text.replaceAll " & ".toList " ".toList (Text.replaceAll "\\\\".toList ";".toList inner))

/-- The matrix with these texts as its entries, typeset. -/
def typeset (rows : List (List String)) : String :=
  opening ++ String.intercalate "\\\\" (rows.map (String.intercalate " & ")) ++ closing

theorem toList_ofLatex {rows : List (List String)} (h : ∀ row ∈ rows, ∀ token ∈ row, Unmarked token.toList) :
    (ofLatex (typeset rows)).toList =
      [';'].intercalate ((rows.map (List.map String.toList)).map [' '].intercalate) := by
  have hinner : (String.intercalate "\\\\" (rows.map (String.intercalate " & "))).toList =
      ['\\', '\\'].intercalate ((rows.map (List.map String.toList)).map [' ', '&', ' '].intercalate) := by
    rw [String.toList_intercalate, List.map_map, List.map_map]
    exact congrArg _ (List.map_congr_left fun row _ => String.toList_intercalate)
  have htokens : ∀ row ∈ rows.map (List.map String.toList), ∀ token ∈ row, Unmarked token :=
    List.forall_mem_map.mpr fun row hrow => List.forall_mem_map.mpr (h row hrow)
  have hslash : ∀ piece ∈ (rows.map (List.map String.toList)).map [' ', '&', ' '].intercalate, '\\' ∉ piece := by
    refine List.forall_mem_map.mpr fun row hrow hmem => ?_
    rcases Text.mem_intercalate hmem with hmem | ⟨token, htoken, hmem⟩
    · exact absurd hmem (by decide)
    · exact (htokens row hrow token htoken).not_mem (by decide) hmem
  have hblank : ∀ row ∈ rows.map (List.map String.toList), ∀ token ∈ row, ' ' ∉ token :=
    fun row hrow token htoken => (htokens row hrow token htoken).not_mem (by decide)
  have hsuffix : ∀ a b : List Char, (a ++ b).dropSuffix? b = some a :=
    fun a b => List.dropSuffix?_eq_some_iff.mpr ⟨b, rfl, beq_self_eq_true b⟩
  unfold ofLatex typeset
  dsimp only
  rw [String.toList_append, String.toList_append, List.append_assoc,
    List.dropPrefix?_append_of_beq _ (beq_self_eq_true _), Option.getD_some, hsuffix, Option.getD_some,
    hinner, String.toList_ofList]
  exact (congrArg _ (Text.replaceAll_intercalate hslash)).trans (Text.replaceAll_rows (by decide) hblank)

theorem written_ofLatex {rows : List (List String)} (hne : rows ≠ []) (hrows : ∀ row ∈ rows, row ≠ [])
    (h : ∀ row ∈ rows, ∀ token ∈ row, Unmarked token.toList) :
    Written (ofLatex (typeset rows)).toList (rows.map (List.map String.toList)) := by
  rw [toList_ofLatex h]
  refine written_joined (mt List.map_eq_nil_iff.mp hne) ?_
  refine List.forall_mem_map.mpr fun row hrow => ⟨?_, List.forall_mem_map.mpr (h row hrow)⟩
  exact mt List.map_eq_nil_iff.mp (hrows row hrow)

end Literal

/-! ## Round trip -/

namespace Binary64

/-- The same bits, except that negative zero becomes positive zero. -/
def withoutNegativeZero (x : Float) : Float :=
  if x.toBits = (-0 : Float).toBits then 0 else x

theorem withoutNegativeZero_eq (x : Float) : withoutNegativeZero x = if x == 0 then 0 else x := by
  unfold withoutNegativeZero
  split
  next h => rw [if_pos (beq_zero_iff.mpr (.inr (eq_of_toBits_eq h)))]
  next h =>
    split
    next hzero =>
      rcases beq_zero_iff.mp hzero with rfl | rfl
      · rfl
      · exact absurd rfl h
    next => rfl

theorem isFinite_withoutNegativeZero {x : Float} (h : x.isFinite = true) :
    (withoutNegativeZero x).isFinite = true := by
  unfold withoutNegativeZero
  split
  · rfl
  · exact h

theorem value_withoutNegativeZero (x : Float) : value (withoutNegativeZero x) = value x := by
  unfold withoutNegativeZero
  split
  next h =>
    have hneg : value (-0) = signed true ((0 : Nat) * 2 ^ (-1074 : Int)) := value_of_ofFloat rfl
    have hpos : value 0 = signed false ((0 : Nat) * 2 ^ (-1074 : Int)) := value_of_ofFloat rfl
    rw [eq_of_toBits_eq h, hneg, hpos]
    simp [signed]
  next => rfl

end Binary64

theorem latexEntry_eq {places : Int64} (h : places < 0) (v : Float) :
    latexEntry places v = Decimal.Layout.plain.render (Binary64.withoutNegativeZero v) := by
  rw [Binary64.withoutNegativeZero_eq, latexEntry, if_neg (Int64.not_le.mpr h)]

theorem unmarked_render {x : Float} (h : x.isFinite = true) :
    Literal.Unmarked (Decimal.Layout.plain.render x).toList := by
  refine ⟨?_, fun c hc => ?_⟩
  · intro hnil
    have hfloat := Decimal.Layout.float_render h
    rw [hnil] at hfloat
    cases hfloat
  · rcases Decimal.Layout.mem_render h hc with hc | rfl | rfl
    · obtain ⟨hlow, hhigh⟩ := Char.isDigit_iff_toNat.mp hc
      exact ⟨Nat.le_trans (by decide) hlow, hhigh⟩
    · decide
    · decide

theorem latex_rows {values : List (List Float)} {d : Dense Float} (hrows : d.rows = values.length)
    (hrect : ∀ vs ∈ values, vs.length = d.cols) (hdata : d.data = values.flatten.toArray) (places : Int64) :
    latex (some (.dense d)) places =
      .ok (Literal.typeset (values.map (List.map (latexEntry places)))) := by
  have htexts := entryTexts_eq (latexEntry places) hrect
  rw [← hrows, ← hdata] at htexts
  have hlatex : latex (some (.dense d)) places = Result.of .latex (do
      let rows ← Result.ofFaulty (entryTexts (latexEntry places) d.rows d.cols d.data)
      return Literal.typeset rows) := rfl
  rw [hlatex, htexts]
  rfl

section

variable {values : List (List Float)} {places : Int64}

theorem unmarked_latexEntry (hfinite : ∀ vs ∈ values, ∀ v ∈ vs, v.isFinite = true) (hplaces : places < 0) :
    ∀ row ∈ values.map (List.map (latexEntry places)), ∀ token ∈ row, Literal.Unmarked token.toList := by
  refine List.forall_mem_map.mpr fun vs hvs => List.forall_mem_map.mpr fun v hv => ?_
  rw [latexEntry_eq hplaces]
  exact unmarked_render (Binary64.isFinite_withoutNegativeZero (hfinite vs hvs v hv))

theorem reads_latexEntry (hfinite : ∀ vs ∈ values, ∀ v ∈ vs, v.isFinite = true) (hplaces : places < 0) :
    Literal.Reads (fun token => (Numeral.float token).toOption)
      ((values.map (List.map (latexEntry places))).map (List.map String.toList))
      (values.map (List.map Binary64.withoutNegativeZero)) := by
  rw [Literal.Reads, List.map_map, List.forall₂_map_left_iff, List.forall₂_map_right_iff]
  refine List.forall₂_same.mpr fun vs hvs => ?_
  rw [Function.comp, List.map_map, List.forall₂_map_left_iff, List.forall₂_map_right_iff]
  refine List.forall₂_same.mpr fun v hv => ?_
  have hv := Binary64.isFinite_withoutNegativeZero (hfinite vs hvs v hv)
  rw [Function.comp, latexEntry_eq hplaces, Decimal.Layout.float_render hv]
  rfl

end

/-- Nothing is lost but the signs of zeros. -/
theorem parseRows_latex (d : Dense Float) (hd : d.Filled) (hfinite : ∀ v ∈ d.data, v.isFinite = true)
    (places : Int64) (hplaces : places < 0) : ∃ text, latex (some (.dense d)) places = .ok text ∧
      parseRows (Literal.ofLatex text) (Settings.resolve []).strict =
        .ok ⟨d.rows, d.cols, d.data.map Binary64.withoutNegativeZero, true⟩ := by
  have hlength : d.data.toList.length = d.rows * d.cols := hd.size
  obtain ⟨values, hrows, hrect, hflatten⟩ := Dense.exists_rows hlength
  have hdata : d.data = values.flatten.toArray := by rw [hflatten]
  have hfinite : ∀ vs ∈ values, ∀ v ∈ vs, v.isFinite = true := by
    intro vs hvs v hv
    refine hfinite v ?_
    rw [hdata, List.mem_toArray]
    exact List.mem_flatten_of_mem hvs hv
  have hne : values.map (List.map (latexEntry places)) ≠ [] := by
    refine List.length_pos_iff.mp ?_
    rw [List.length_map, hrows]
    exact hd.fits.rows_pos
  have hrow : ∀ row ∈ values.map (List.map (latexEntry places)), row ≠ [] := by
    refine List.forall_mem_map.mpr fun vs hvs => List.length_pos_iff.mp ?_
    rw [List.length_map, hrect vs hvs]
    exact hd.fits.cols_pos
  have hwritten := Literal.written_ofLatex hne hrow (unmarked_latexEntry hfinite hplaces)
  refine ⟨_, latex_rows hrows.symm hrect hdata places, ?_⟩
  refine (Literal.readWith_fits (fun token => Numeral.float_blank) hwritten
    (reads_latexEntry hfinite hplaces) (c := d.cols) ?_ ?_ ?_).trans ?_
  · rw [List.length_map, hrows]
    exact hd.fits
  · refine List.forall_mem_map.mpr fun vs hvs => ?_
    rw [List.length_map, hrect vs hvs]
  · intro v hv
    rw [← List.map_flatten] at hv
    obtain ⟨w, hw, rfl⟩ := List.mem_map.mp hv
    obtain ⟨vs, hvs, hw⟩ := List.mem_flatten.mp hw
    exact Binary64.isFinite_withoutNegativeZero (hfinite vs hvs w hw)
  · rw [List.length_map, hrows, ← List.map_flatten, hdata, List.map_toArray]

theorem parseRows_latex_third : ∃ text,
    latex (some (.dense ⟨2, 1, #[-0, Float.ofBits 0x3fd5555555555555], true⟩)) (-1) = .ok text ∧
      parseRows (Literal.ofLatex text) true =
        .ok ⟨2, 1, #[0, Float.ofBits 0x3fd5555555555555], true⟩ := by
  have hfinite : ∀ v ∈ #[-0, Float.ofBits 0x3fd5555555555555], v.isFinite = true := by
    intro v hv
    simp only [List.mem_toArray, List.mem_cons, List.not_mem_nil, or_false] at hv
    rcases hv with rfl | rfl
    · decide
    · decide
  have hentries : #[-0, Float.ofBits 0x3fd5555555555555].map Binary64.withoutNegativeZero =
      #[0, Float.ofBits 0x3fd5555555555555] := by
    rw [List.map_toArray]
    rfl
  rw [← hentries]
  exact parseRows_latex ⟨2, 1, #[-0, Float.ofBits 0x3fd5555555555555], true⟩
    ⟨⟨by decide, by decide, by decide⟩, rfl⟩ hfinite (-1) (by decide)

/-! ## Rounded entries -/

section

open Binary64 (NearestInt withoutNegativeZero)

theorem latexEntry_of_nonneg {places : Int64} (h : 0 ≤ places) (v : Float) : latexEntry places v =
    Decimal.Layout.plain.render (withoutNegativeZero (Decimal.roundPlaces places.toNatClampNeg v)) := by
  rw [Binary64.withoutNegativeZero_eq, latexEntry, if_pos h]

theorem withoutNegativeZero_roundPlaces {x : Float} (hx : x.isFinite = true) (places : Nat) :
    withoutNegativeZero (Decimal.roundPlaces places (withoutNegativeZero (Decimal.roundPlaces places x))) =
      withoutNegativeZero (Decimal.roundPlaces places x) := by
  by_cases hzero : (Decimal.roundPlaces places x).toBits = (-0 : Float).toBits
  · have hfolded : withoutNegativeZero (Decimal.roundPlaces places x) = 0 := if_pos hzero
    rw [hfolded, Decimal.roundPlaces_zero]
    rfl
  · have hkept : withoutNegativeZero (Decimal.roundPlaces places x) = Decimal.roundPlaces places x :=
      if_neg hzero
    rw [hkept, Decimal.roundPlaces_roundPlaces hx, hkept]

/-- The text of an entry is read back as a number with the same text. It is the number nearest to the
decimal with the given places that is nearest to the entry. -/
theorem latexEntry_idempotent {v : Float} (hv : v.isFinite = true) {places : Int64} (hplaces : 0 ≤ places) :
    ∃ w : Float, Numeral.float (latexEntry places v).toList = .ok w ∧ w.isFinite = true ∧
      latexEntry places w = latexEntry places v ∧
      ∃ c : Int, NearestInt (Binary64.value v * 10 ^ places.toNatClampNeg) c ∧
        ∀ y : Float, y.isFinite = true → |c / 10 ^ places.toNatClampNeg - Binary64.value w| ≤
          |c / 10 ^ places.toNatClampNeg - Binary64.value y| := by
  have hrounded := Decimal.isFinite_roundPlaces hv places.toNatClampNeg
  have hfolded := Binary64.isFinite_withoutNegativeZero hrounded
  refine ⟨withoutNegativeZero (Decimal.roundPlaces places.toNatClampNeg v), ?_, hfolded, ?_, ?_⟩
  · rw [latexEntry_of_nonneg hplaces, Decimal.Layout.float_render hfolded]
  · rw [latexEntry_of_nonneg hplaces, latexEntry_of_nonneg hplaces, withoutNegativeZero_roundPlaces hv]
  · rw [Binary64.value_withoutNegativeZero]
    exact Decimal.exists_nearest_roundPlaces hv _

/-- One eighth lies halfway between two decimals with two places, and the even one is no number. -/
theorem latexEntry_idempotent_tie : (Float.ofBits 0xbfc0000000000000).isFinite = true ∧ (0 : Int64) ≤ 2 ∧
    latexEntry 2 (Float.ofBits 0xbfc0000000000000) = "-0.12" ∧
    ∃ w : Float, Numeral.float "-0.12".toList = .ok w ∧ w.isFinite = true ∧ latexEntry 2 w = "-0.12" ∧
      ∃ c : Int, NearestInt (Binary64.value (Float.ofBits 0xbfc0000000000000) * 10 ^ 2) c ∧
        ∀ y : Float, y.isFinite = true →
          |c / 10 ^ 2 - Binary64.value w| ≤ |c / 10 ^ 2 - Binary64.value y| := by
  have hfinite : (Float.ofBits 0xbfc0000000000000).isFinite = true := by decide
  have hplaces : (0 : Int64) ≤ 2 := by decide
  have htext : latexEntry 2 (Float.ofBits 0xbfc0000000000000) = "-0.12" := by decide +kernel
  have hentry := latexEntry_idempotent hfinite hplaces
  rw [htext] at hentry
  exact ⟨hfinite, hplaces, htext, hentry⟩

end

end PivotedLU
