import Mathlib.Data.List.Basic

/-!
# Texts, their lines and replacement

Texts as lists of characters, with the operations of a scripting language on them.

* `universalNewlines` — what reading a file in text mode makes of its line ends.
* `readlines` — the lines, each with its line end.
* `replace`, `replaceAll` — replacement of all occurrences of a word, and of several words
  one after the other.
* `replaceAll_eq_flatten` — words without a line end can be replaced line by line.
-/

namespace TextLines

/-- A text. -/
abbrev Text := List Char

/-! ## Lines -/

/-- `\r\n` and `\r` are read as `\n`. -/
def universalNewlines : Text → Text
  | [] => []
  | '\r' :: '\n' :: rest => '\n' :: universalNewlines rest
  | '\r' :: rest => '\n' :: universalNewlines rest
  | c :: rest => c :: universalNewlines rest

/-- The lines of a text, each with its line end; the last line may be without. -/
def readlines : Text → List Text
  | [] => []
  | c :: rest =>
    if c = '\n' then [c] :: readlines rest
    else match readlines rest with
      | [] => [[c]]
      | line :: lines => (c :: line) :: lines

/-- A line end ends the first line. -/
theorem readlines_append {line : Text} (h : '\n' ∉ line) (rest : Text) :
    readlines (line ++ '\n' :: rest) = (line ++ ['\n']) :: readlines rest := by
  induction line with
  | nil => rfl
  | cons c line ih =>
    obtain ⟨hc, hline⟩ := List.ne_and_not_mem_of_not_mem_cons h
    rw [List.cons_append, readlines, if_neg hc.symm, ih hline]
    rfl

/-- A text without a line end is one line. -/
theorem readlines_of_notMem {line : Text} (h : '\n' ∉ line) (hne : line ≠ []) :
    readlines line = [line] := by
  induction line with
  | nil => exact absurd rfl hne
  | cons c line ih =>
    obtain ⟨hc, hline⟩ := List.ne_and_not_mem_of_not_mem_cons h
    rw [readlines, if_neg hc.symm]
    by_cases hnil : line = []
    · rw [hnil]
      rfl
    · rw [ih hline hnil]

/-- What holds of the empty text, of one line, and behind a first line, holds of every text. -/
theorem linesInduction {P : Text → Prop} (nil : P []) (single : ∀ line, '\n' ∉ line → P line)
    (cons : ∀ line rest, '\n' ∉ line → P rest → P (line ++ '\n' :: rest)) (text : Text) :
    P text := by
  by_cases h : '\n' ∈ text
  · obtain ⟨line, rest, heq, hline⟩ := List.eq_append_cons_of_mem h
    have : rest.length < text.length := by
      rw [heq, List.length_append, List.length_cons]
      omega
    rw [heq]
    exact cons line rest hline (linesInduction nil single cons rest)
  · exact single text h
termination_by text.length

/-- The lines make up the text. -/
theorem flatten_readlines (text : Text) : (readlines text).flatten = text := by
  induction text using linesInduction with
  | nil => rfl
  | single line h =>
    by_cases hnil : line = []
    · rw [hnil]
      rfl
    · rw [readlines_of_notMem h hnil, List.flatten_singleton]
  | cons line rest h ih =>
    rw [readlines_append h, List.flatten_cons, ih, List.append_assoc]
    rfl

/-- No line is empty. -/
theorem ne_nil_of_mem_readlines {line text : Text} (h : line ∈ readlines text) : line ≠ [] := by
  induction text using linesInduction with
  | nil => cases h
  | single l hl =>
    by_cases hnil : l = []
    · rw [hnil] at h
      cases h
    · rw [readlines_of_notMem hl hnil] at h
      rw [List.mem_singleton.mp h]
      exact hnil
  | cons l rest hl ih =>
    rw [readlines_append hl] at h
    rcases List.mem_cons.mp h with rfl | h
    · simp
    · exact ih h

/-- Some lines at the end are nothing only if there are none. -/
theorem flatten_drop_readlines (text : Text) (n : ℕ) :
    ((readlines text).drop n).flatten = [] ↔ (readlines text).length ≤ n := by
  rw [List.flatten_eq_nil_iff, ← List.drop_eq_nil_iff]
  constructor
  · intro h
    rw [List.eq_nil_iff_forall_not_mem]
    intro line hline
    exact ne_nil_of_mem_readlines (List.mem_of_mem_drop hline) (h line hline)
  · intro h line hline
    rw [h] at hline
    cases hline

theorem universalNewlines_length_le (text : Text) :
    (universalNewlines text).length ≤ text.length := by
  fun_induction universalNewlines text with
  | case1 => exact Nat.le_refl _
  | case2 rest ih => simp only [List.length_cons]; omega
  | case3 rest hne ih => simp only [List.length_cons]; omega
  | case4 c rest h₁ h₂ ih => simp only [List.length_cons]; omega

/-! ## Replacement -/

/-- Replacement in the rest of a text, the first `skip` characters of which belong to an
occurrence that was replaced. -/
def replaceFrom (old new : Text) : ℕ → Text → Text
  | _, [] => []
  | skip + 1, _ :: rest => replaceFrom old new skip rest
  | 0, c :: rest =>
    if old <+: c :: rest then new ++ replaceFrom old new (old.length - 1) rest
    else c :: replaceFrom old new 0 rest

/-- All occurrences of a word, from left to right and without overlap. -/
def replace (old new text : Text) : Text := replaceFrom old new 0 text

/-- Several words, one after the other. -/
def replaceAll (values : List (Text × Text)) (text : Text) : Text :=
  values.foldl (fun text value => replace value.1 value.2 text) text

/-- A word that is not empty and within a line. -/
def IsWord (word : Text) : Prop := word ≠ [] ∧ '\n' ∉ word

/-- An occurrence of a word ends before the line does. -/
theorem word_prefix_append {word line : Text} (h : IsWord word) (rest : Text) :
    word <+: line ++ '\n' :: rest ↔ word <+: line := by
  constructor
  · intro hword
    rcases List.prefix_or_prefix_of_prefix hword (List.prefix_append line ('\n' :: rest)) with
      hshort | ⟨more, rfl⟩
    · exact hshort
    · rcases more with _ | ⟨c, more⟩
      · simp only [List.append_nil, List.prefix_rfl]
      · -- a longer word would have the line end in it
        obtain ⟨tail, htail⟩ := (List.prefix_append_right_inj line).mp hword
        obtain ⟨rfl, -⟩ := List.cons.inj htail
        exact absurd (List.mem_append_right _ List.mem_cons_self) h.2
  · intro hword
    exact hword.trans (List.prefix_append line _)

/-- Replacement goes on afresh behind a line end. -/
theorem replaceFrom_append {word : Text} (h : IsWord word) (new line rest : Text) (skip : ℕ)
    (hskip : skip ≤ line.length) :
    replaceFrom word new skip (line ++ '\n' :: rest) =
      replaceFrom word new skip line ++ '\n' :: replaceFrom word new 0 rest := by
  induction line generalizing skip with
  | nil =>
    obtain rfl := Nat.le_zero.mp hskip
    have hnot : ¬ word <+: '\n' :: rest := by
      intro hword
      exact h.1 (List.prefix_nil.mp ((word_prefix_append h rest).mp hword))
    rw [List.nil_append, replaceFrom.eq_3, if_neg hnot]
    rfl
  | cons c line ih =>
    rw [List.length_cons] at hskip
    cases skip with
    | succ skip => exact ih skip (by omega)
    | zero =>
      rw [List.cons_append, replaceFrom.eq_3, replaceFrom.eq_3, ← List.cons_append,
        if_congr (word_prefix_append h rest) rfl rfl]
      split
      next hword =>
        have hlength := hword.length_le
        rw [List.length_cons] at hlength
        rw [ih _ (by omega), List.append_assoc]
      next => rw [ih 0 (Nat.zero_le _), List.cons_append]

theorem replaceAll_append {values : List (Text × Text)} (h : ∀ value ∈ values, IsWord value.1)
    (line rest : Text) : replaceAll values (line ++ '\n' :: rest) =
      replaceAll values line ++ '\n' :: replaceAll values rest := by
  induction values generalizing line rest with
  | nil => rfl
  | cons value values ih =>
    have hvalue := h value List.mem_cons_self
    have hfirst := replaceFrom_append hvalue value.2 line rest 0 (Nat.zero_le _)
    have hrest := ih (fun v hv => h v (List.mem_cons_of_mem _ hv)) (replace value.1 value.2 line)
      (replace value.1 value.2 rest)
    rw [replaceAll, List.foldl_cons, replace, hfirst]
    exact hrest

theorem replaceAll_nil (values : List (Text × Text)) : replaceAll values [] = [] := by
  induction values with
  | nil => rfl
  | cons value values ih => exact ih

/-- Words within lines can be replaced line by line. -/
theorem replaceAll_eq_flatten {values : List (Text × Text)}
    (h : ∀ value ∈ values, IsWord value.1) (text : Text) :
    ((readlines text).map (replaceAll values)).flatten = replaceAll values text := by
  induction text using linesInduction with
  | nil => rw [replaceAll_nil]; rfl
  | single line hline =>
    by_cases hnil : line = []
    · rw [hnil, replaceAll_nil]
      rfl
    · rw [readlines_of_notMem hline hnil, List.map_singleton, List.flatten_singleton]
  | cons line rest hline ih =>
    have hend : replaceAll values (line ++ ['\n']) = replaceAll values line ++ ['\n'] := by
      rw [replaceAll_append h, replaceAll_nil]
    rw [readlines_append hline, List.map_cons, List.flatten_cons, ih, hend,
      replaceAll_append h, List.append_assoc]
    rfl

end TextLines
