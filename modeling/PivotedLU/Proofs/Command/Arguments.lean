import PivotedLU.Command.Arguments

/-!
# Flags on a command line

Words that do not begin with a dash are kept in their order. A flag that is set at some place acts as
a default for all that is read after it: what the rest of the line sets wins, and errors and words are
those of the rest.
-/

namespace PivotedLU

/-! ## Defaults for flags -/

/-- The flags that were given, and for the others those of `h`. -/
def GivenFlags.orElse (g h : GivenFlags) : GivenFlags where
  logLevel := g.logLevel <|> h.logLevel
  logFormat := g.logFormat <|> h.logFormat
  output := g.output <|> h.output
  precision := g.precision <|> h.precision
  pivotTolerance := g.pivotTolerance <|> h.pivotTolerance
  size := g.size <|> h.size
  seed := g.seed <|> h.seed
  maxResidual := g.maxResidual <|> h.maxResidual
  display := g.display <|> h.display
  help := g.help <|> h.help

namespace Arguments

variable {c : Option Command} {f : Flag} {value : String}

/-- The same words, and other flags for those that were not given. -/
def orElse (a : Arguments) (h : GivenFlags) : Arguments :=
  { a with flags := a.flags.orElse h }

theorem setFlag_orElse (f : Flag) (value : String) (g h : GivenFlags) :
    setFlag f value (g.orElse h) = (setFlag f value g).map (·.orElse h) := by
  cases f with
  | logLevel | logFormat | output => rfl
  | precision | size | seed =>
      simp only [setFlag]
      cases readValue _ value (Numeral.integer value.toList) <;> rfl
  | pivotTolerance | maxResidual =>
      simp only [setFlag]
      cases readValue _ value (Numeral.float value.toList) <;> rfl
  | display | help =>
      simp only [setFlag]
      cases readValue _ value (Numeral.boolean value) <;> rfl

theorem set_orElse (a : Arguments) (f : Flag) (value : String) (h : GivenFlags) :
    (a.orElse h).set f value = (a.set f value).map (·.orElse h) := by
  simp only [set, orElse, setFlag_orElse]
  cases setFlag f value a.flags <;> rfl

/-- What reading a word leaves, with other flags for those that were not given. -/
def withDefaults (h : GivenFlags) (r : Arguments × Option Pending) : Arguments × Option Pending :=
  (r.1.orElse h, r.2)

/-- Setting a flag and going on without a pending one. -/
theorem set_settled_orElse (a : Arguments) (f : Flag) (value : String) (h : GivenFlags) :
    ((a.orElse h).set f value).map (·, (none : Option Pending)) =
      ((a.set f value).map (·, none)).map (withDefaults h) := by
  rw [set_orElse]
  cases a.set f value <;> rfl

theorem readLong_orElse (c : Option Command) (word : String) (body : List Char) (a : Arguments)
    (h : GivenFlags) :
    readLong c word body (a.orElse h) = (readLong c word body a).map (withDefaults h) := by
  unfold readLong
  split
  · rfl
  · rfl
  · rfl
  · dsimp only
    split
    · rfl
    · split
      · exact set_settled_orElse a _ _ h
      · split
        · exact set_settled_orElse a _ _ h
        · rfl

theorem readGroup_orElse (c : Option Command) (group : List Char) (a : Arguments) (h : GivenFlags) :
    readGroup c group (a.orElse h) = (readGroup c group a).map (withDefaults h) := by
  induction group generalizing a with
  | nil => rfl
  | cons x rest ih =>
      rw [readGroup.eq_def, readGroup.eq_def]
      dsimp only
      split
      · rfl
      · split
        · rfl
        · split
          · exact set_settled_orElse a _ _ h
          · split
            · rw [set_orElse]
              cases a.set _ "true" with
              | error e => rfl
              | ok b => exact ih b
            · split
              · rfl
              · exact set_settled_orElse a _ _ h

theorem readWord_orElse (c : Option Command) (word : String) (a : Arguments) (h : GivenFlags) :
    readWord c word (a.orElse h) = (readWord c word a).map (withDefaults h) := by
  unfold readWord
  split
  · exact readLong_orElse c word _ a h
  · exact readGroup_orElse c _ a h
  · rfl

/-- Flags that are set before the rest of a line is read are defaults for it. -/
theorem readAll_orElse (c : Option Command) (pending : Option Pending) (words : List String)
    (a : Arguments) (h : GivenFlags) :
    readAll c pending words (a.orElse h) = (readAll c pending words a).map (·.orElse h) := by
  induction words generalizing pending a with
  | nil => cases pending <;> rfl
  | cons word rest ih =>
      cases pending with
      | some p =>
          simp only [readAll, set_orElse]
          cases a.set p.flag word with
          | error e => rfl
          | ok b => exact ih none b
      | none =>
          rw [readAll, readAll]
          split
          · rfl
          · rw [readWord_orElse]
            cases readWord c word a with
            | error e => rfl
            | ok b => exact ih b.2 b.1

/-! ## Words and assignments -/

/-- The word is not taken for a flag. -/
def IsPositional (word : String) : Prop :=
  word.toList.head? ≠ some '-'

instance (word : String) : Decidable (IsPositional word) :=
  inferInstanceAs (Decidable (_ ≠ _))

theorem IsPositional.isPrefixOf_eq_false {word : String} (h : IsPositional word)
    (tail : List Char) : ('-' :: tail).isPrefixOf word.toList = false := by
  unfold IsPositional at h
  cases hchars : word.toList with
  | nil => rfl
  | cons x rest =>
      rw [hchars] at h
      have hx : ('-' == x) = false := by simpa using Ne.symm h
      rw [List.isPrefixOf, hx, Bool.false_and]

theorem readWord_of_isPositional {word : String} (h : IsPositional word) (a : Arguments) :
    readWord c word a = .ok ({ a with words := a.words ++ [word] }, none) := by
  unfold readWord
  split
  next heq => exact absurd (by rw [heq]; rfl) h
  next heq => exact absurd (by rw [heq]; rfl) h
  next => rfl

theorem readAll_positional {before : List String} (h : ∀ word ∈ before, IsPositional word)
    (rest : List String) (a : Arguments) :
    readAll c none (before ++ rest) a = readAll c none rest { a with words := a.words ++ before } := by
  induction before generalizing a with
  | nil => simp
  | cons word before ih =>
      have hword : IsPositional word := h word List.mem_cons_self
      have hne : word ≠ "--" := by
        rintro rfl
        exact hword rfl
      rw [List.cons_append, readAll, if_neg hne, readWord_of_isPositional hword]
      dsimp only [bind, Except.bind]
      rw [ih fun w hw => h w (List.mem_cons_of_mem word hw)]
      simp

end Arguments

namespace Flag

/-- The word that sets a flag. -/
def assign (f : Flag) (value : String) : String :=
  "--" ++ f.name ++ "=" ++ value

theorem toList_assign (f : Flag) (value : String) :
    (f.assign value).toList = '-' :: '-' :: (f.name.toList ++ '=' :: value.toList) := by
  simp [assign]

/-- The name of a flag begins with a letter and holds no equals sign. -/
theorem name_shape (f : Flag) :
    ∃ x rest, f.name.toList = x :: rest ∧ x ≠ '-' ∧ '=' ∉ x :: rest := by
  cases f <;> exact ⟨_, _, rfl, by decide, by decide⟩

theorem ofName?_name {f : Flag} {c : Option Command} (h : f.belongsTo c = true) :
    ofName? c f.name = some f := by
  unfold ofName?
  cases f <;> simp [all, List.find?, name, h]

end Flag

namespace Arguments

variable {c : Option Command} {f : Flag} {base : GivenFlags} {value : String}

theorem readWord_assign (h : f.belongsTo c = true) (value : String) (a : Arguments) :
    readWord c (f.assign value) a = (a.set f value).map (·, none) := by
  obtain ⟨x, rest, hname, hdash, hequals⟩ := f.name_shape
  have hfirst : x ≠ '=' := fun heq => hequals (heq ▸ List.mem_cons_self)
  have hbefore : ∀ y ∈ x :: rest, (y != '=') = true := fun y hy =>
    bne_iff_ne.mpr fun heq => hequals (heq ▸ hy)
  have htake : (x :: rest ++ '=' :: value.toList).takeWhile (· != '=') = x :: rest := by
    rw [List.takeWhile_append_of_pos hbefore]
    simp
  have hdrop : (x :: rest ++ '=' :: value.toList).dropWhile (· != '=') = '=' :: value.toList := by
    rw [List.dropWhile_append_of_pos hbefore]
    simp
  have hflag : Flag.ofName? c (String.ofList (x :: rest)) = some f := by
    rw [← hname, String.ofList_toList]
    exact Flag.ofName?_name h
  rw [readWord, Flag.toList_assign, hname]
  change readLong c (f.assign value) (x :: rest ++ '=' :: value.toList) a = _
  unfold readLong
  split
  next heq => cases heq
  next heq => exact absurd (List.cons.inj heq).1 hdash
  next heq => exact absurd (List.cons.inj heq).1 hfirst
  next =>
    rw [htake, hdrop]
    dsimp only
    rw [hflag, String.ofList_toList]

theorem not_isPositional_assign (f : Flag) (value : String) : ¬ IsPositional (f.assign value) := by
  rw [IsPositional, Flag.toList_assign]
  simp

theorem assign_ne_dashes (f : Flag) (value : String) : f.assign value ≠ "--" := by
  intro h
  have hlist := congrArg String.toList h
  obtain ⟨x, rest, hname, -⟩ := f.name_shape
  rw [Flag.toList_assign, hname] at hlist
  cases hlist

/-- A flag set between words is a default for what follows it. -/
theorem read_assign (h : f.belongsTo c = true) (hset : setFlag f value {} = .ok base)
    {before : List String} (hbefore : ∀ word ∈ before, IsPositional word) (after : List String) :
    read c (before ++ f.assign value :: after) = (read c (before ++ after)).map (·.orElse base) := by
  rw [read, read, readAll_positional hbefore, readAll_positional hbefore, ← readAll_orElse, readAll,
    if_neg (assign_ne_dashes f value), readWord_assign h]
  simp only [set, hset]
  rfl

end Arguments

/-! ## The command of a line -/

namespace Command

open Arguments

/-- A word that takes no value does not hide the words after it. -/
theorem firstWord_cons {word : String} (hdashes : word ≠ "--") (htakes : takesNext word = false)
    (rest : List String) :
    firstWord (word :: rest) =
      if word = "" ∨ "-".toList.isPrefixOf word.toList then firstWord rest else some word := by
  rw [firstWord.eq_def]
  simp only [hdashes, htakes, if_false, Bool.false_eq_true]

theorem firstWord_positional {word : String} (h : IsPositional word) (rest : List String) :
    firstWord (word :: rest) = if word = "" then firstWord rest else some word := by
  have hdashes : word ≠ "--" := by
    rintro rfl
    exact h rfl
  have htakes : takesNext word = false := by
    simp [takesNext, h.isPrefixOf_eq_false]
  rw [firstWord_cons hdashes htakes]
  simp [h.isPrefixOf_eq_false]

theorem firstWord_assign (f : Flag) (value : String) {before : List String}
    (hbefore : ∀ word ∈ before, IsPositional word) (after : List String) :
    firstWord (before ++ f.assign value :: after) = firstWord (before ++ after) := by
  induction before with
  | nil =>
      have htakes : takesNext (f.assign value) = false := by
        simp [takesNext, Flag.toList_assign]
      rw [List.nil_append, firstWord_cons (assign_ne_dashes f value) htakes, Flag.toList_assign]
      exact if_pos (.inr rfl)
  | cons word before ih =>
      have hword := hbefore word List.mem_cons_self
      rw [List.cons_append, List.cons_append, firstWord_positional hword, firstWord_positional hword,
        ih fun w hw => hbefore w (List.mem_cons_of_mem word hw)]

theorem name_isPositional (c : Command) : IsPositional c.name := by
  cases c with
  | evaluate e => cases e <;> decide
  | _ => decide

end Command

end PivotedLU
