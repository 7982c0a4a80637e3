import FrameMerge.Text.Blank
import Mathlib.Data.List.DropRight

/-!
# How text falls apart

Each way of cutting text is undone by putting its parts together, and the parts are told by what they do not hold: a piece
holds no separator (`Text.notMem_of_mem_pieces`), a word no blank (`Text.of_mem_words`), what stands before a first occurrence
or after a last one does not hold what is looked for (`Text.cut?_eq_some_iff`, `Text.cutLast?_eq_some_iff`). Blanks around a
text make no difference to what is left of it (`Text.trim_between`), and a text without line endings stays whole in the first
line (`Text.headD_lines_append`).
-/

namespace FrameMerge.Text

/-- What stands between two characters of a kind has none of that kind, and comes from the text. -/
theorem of_mem_splitOnP {p : Char → Bool} {s part : List Char} (h : part ∈ s.splitOnP p) {c : Char} (hc : c ∈ part) :
    p c = false ∧ c ∈ s := by
  induction s generalizing part with
  | nil =>
    rw [List.splitOnP_nil, List.mem_singleton] at h
    rw [h] at hc
    cases hc
  | cons d s ih =>
    rw [List.splitOnP_cons_eq_if_modifyHead] at h
    by_cases hd : p d = true
    · rw [if_pos hd] at h
      rcases List.mem_cons.1 h with rfl | h
      · cases hc
      · exact ⟨(ih h hc).1, List.mem_cons_of_mem _ (ih h hc).2⟩
    · obtain ⟨first, others, hparts⟩ := List.exists_cons_of_ne_nil (List.splitOnP_ne_nil p s)
      rw [if_neg hd, hparts, List.modifyHead_cons] at h
      rw [hparts] at ih
      rcases List.mem_cons.1 h with rfl | h
      · rcases List.mem_cons.1 hc with rfl | hc
        · exact ⟨Bool.eq_false_iff.2 hd, List.mem_cons_self⟩
        · exact ⟨(ih List.mem_cons_self hc).1, List.mem_cons_of_mem _ (ih List.mem_cons_self hc).2⟩
      · have hlater := ih (List.mem_cons_of_mem _ h) hc
        exact ⟨hlater.1, List.mem_cons_of_mem _ hlater.2⟩

/-! ## Pieces -/

section Pieces

variable {separator : Char} {s piece left right : List Char}

/-- Cutting at every separator is splitting a list there. -/
theorem pieces_eq_splitOn (separator : Char) (s : List Char) : pieces separator s = s.splitOn separator := by
  induction s with
  | nil => rfl
  | cons c s ih =>
    rw [pieces, List.splitOn_cons_eq_if_modifyHead, ih]
    by_cases h : c = separator
    · simp [h]
    · rw [if_neg h, if_neg (by simpa using h)]
      obtain ⟨first, others, hparts⟩ := List.exists_cons_of_ne_nil (List.splitOn_ne_nil separator s)
      rw [hparts]
      rfl

/-- The pieces of two texts with a separator between them are those of the one and those of the other. -/
theorem pieces_join (separator : Char) (a b : List Char) :
    pieces separator (a ++ separator :: b) = pieces separator a ++ pieces separator b := by
  simp only [pieces_eq_splitOn, List.splitOn_append_cons_self]

/-- The first piece goes up to the first separator. -/
theorem pieces_eq_cons (separator : Char) (s : List Char) :
    ∃ others, pieces separator s = s.takeWhile (· ≠ separator) :: others := by
  induction s with
  | nil => exact ⟨[], rfl⟩
  | cons c s ih =>
    obtain ⟨others, hpieces⟩ := ih
    rw [pieces]
    by_cases hc : c = separator
    · exact ⟨pieces separator s, by simp [hc]⟩
    · exact ⟨others, by simp [hc, hpieces]⟩

theorem pieces_eq_singleton (h : separator ∉ s) : pieces separator s = [s] := by
  rw [pieces_eq_splitOn, List.splitOn_eq_singleton h]

/-- No separator is left in a piece. -/
theorem notMem_of_mem_pieces (h : piece ∈ pieces separator s) : separator ∉ piece := by
  rw [pieces_eq_splitOn, List.splitOn_eq_splitOnP] at h
  intro hmem
  have hother := (of_mem_splitOnP h hmem).1
  simp at hother

/-- There are two pieces exactly if the separator stands there once. -/
theorem pieces_eq_pair_iff :
    pieces separator s = [left, right] ↔ s = left ++ separator :: right ∧ separator ∉ left ∧ separator ∉ right := by
  constructor
  · intro h
    refine ⟨?_, notMem_of_mem_pieces (by rw [h]; simp), notMem_of_mem_pieces (by rw [h]; simp)⟩
    have hjoin : [separator].intercalate (s.splitOn separator) = s := List.intercalate_splitOn separator
    rw [← hjoin, ← pieces_eq_splitOn, h]
    simp [List.intercalate_cons_cons]
  · rintro ⟨rfl, hleft, hright⟩
    rw [pieces_join, pieces_eq_singleton hleft, pieces_eq_singleton hright]
    rfl

end Pieces

/-! ## First and last occurrences -/

section Occurrences

variable {separator : Char} {s before after : List Char}

/-- Cutting at the first separator: none stands before it. -/
theorem cut?_eq_some_iff : cut? [separator] s = some (before, after) ↔ s = before ++ separator :: after ∧ separator ∉ before := by
  constructor
  · intro h
    induction s generalizing before with
    | nil => cases h
    | cons c s ih =>
      rw [cut?] at h
      by_cases hc : c = separator
      · subst hc
        simp at h
        obtain ⟨rfl, rfl⟩ := h
        exact ⟨rfl, List.not_mem_nil⟩
      · rw [if_neg (by simpa using Ne.symm hc)] at h
        obtain ⟨⟨first, rest⟩, hcut, hsame⟩ := Option.map_eq_some_iff.1 h
        obtain ⟨rfl, rfl⟩ := Prod.mk.inj hsame
        obtain ⟨rfl, hfirst⟩ := ih hcut
        exact ⟨rfl, by simp [Ne.symm hc, hfirst]⟩
  · rintro ⟨rfl, hbefore⟩
    induction before with
    | nil => simp [cut?]
    | cons c before ih =>
      rw [List.mem_cons, not_or] at hbefore
      simp [cut?, hbefore.1, ih hbefore.2]

/-- Cutting at the last separator: none stands behind it. -/
theorem cutLast?_eq_some_iff :
    cutLast? separator s = some (before, after) ↔ s = before ++ separator :: after ∧ separator ∉ after := by
  rw [cutLast?, Option.map_eq_some_iff]
  constructor
  · rintro ⟨⟨last, first⟩, hcut, hsame⟩
    obtain ⟨rfl, rfl⟩ := Prod.mk.inj hsame
    obtain ⟨hs, hlast⟩ := cut?_eq_some_iff.1 hcut
    refine ⟨?_, by rwa [List.mem_reverse]⟩
    rw [← List.reverse_reverse s, hs]
    simp
  · rintro ⟨rfl, hafter⟩
    refine ⟨(after.reverse, before.reverse), cut?_eq_some_iff.2 ⟨?_, by rwa [List.mem_reverse]⟩, by simp⟩
    simp

end Occurrences

/-! ## Blanks around a text -/

section Trimming

variable {s a b : List Char}

/-- Blanks around a text make no difference to what is left of it. -/
theorem trim_between (ha : ∀ c ∈ a, isBlank c = true) (s : List Char) (hb : ∀ c ∈ b, isBlank c = true) :
    trim (a ++ (s ++ b)) = trim s := by
  show (List.dropWhile isBlank _).rdropWhile isBlank = (s.dropWhile isBlank).rdropWhile isBlank
  rw [List.dropWhile_append_of_pos ha, List.dropWhile_append]
  have hdrop (t : List Char) : (t ++ b).rdropWhile isBlank = t.rdropWhile isBlank := by
    rw [List.rdropWhile, List.rdropWhile, List.reverse_append,
      List.dropWhile_append_of_pos fun c hc => hb c (List.mem_reverse.1 hc)]
  split
  · rename_i hempty
    rw [List.isEmpty_iff.1 hempty, List.dropWhile_eq_nil_iff.2 hb]
  · exact hdrop _

/-- A text is what is left of it, with blanks around. -/
theorem exists_trim (s : List Char) :
    ∃ a b, s = a ++ (trim s ++ b) ∧ (∀ c ∈ a, isBlank c = true) ∧ ∀ c ∈ b, isBlank c = true := by
  refine ⟨s.takeWhile isBlank, (s.dropWhile isBlank).rtakeWhile isBlank, ?_, fun c hc => List.mem_takeWhile_imp hc,
    fun c hc => List.mem_rtakeWhile_imp hc⟩
  rw [show trim s = (s.dropWhile isBlank).rdropWhile isBlank from rfl, List.rdropWhile_append_rtakeWhile,
    List.takeWhile_append_dropWhile]

/-- What is trimmed has nothing more to lose. -/
theorem trim_trim (s : List Char) : trim (trim s) = trim s := by
  obtain ⟨a, b, hs, ha, hb⟩ := exists_trim s
  have hsame := trim_between ha (trim s) hb
  rw [← hs] at hsame
  exact hsame.symm

/-- Trimming adds nothing. -/
theorem mem_of_mem_trim {c : Char} (h : c ∈ trim s) : c ∈ s := by
  obtain ⟨a, b, hs, -, -⟩ := exists_trim s
  rw [hs]
  exact List.mem_append_right _ (List.mem_append_left _ h)

/-- Nothing is left of blanks, and of nothing else. -/
theorem trim_eq_nil_iff : trim s = [] ↔ ∀ c ∈ s, isBlank c = true := by
  constructor
  · intro h c hc
    obtain ⟨a, b, hs, ha, hb⟩ := exists_trim s
    rw [hs, h, List.nil_append] at hc
    exact (List.mem_append.1 hc).elim (ha c) (hb c)
  · intro h
    have hblank := trim_between h [] (List.forall_mem_nil _)
    rwa [List.nil_append, List.append_nil] at hblank

/-- A text that neither starts nor ends with a blank is left as it is. -/
theorem trim_of_ends (hfirst : ∀ c ∈ s.head?, isBlank c = false) (hlast : ∀ c ∈ s.getLast?, isBlank c = false) :
    trim s = s := by
  have hdrop : s.dropWhile isBlank = s := by
    rw [List.dropWhile_eq_self_iff]
    intro hpos
    simp [hfirst s[0] (by simp [List.head?_eq_getElem?, hpos])]
  show (s.dropWhile isBlank).rdropWhile isBlank = s
  rw [hdrop, List.rdropWhile_eq_self_iff]
  intro hsome
  simp [hlast (s.getLast hsome) (by simp [List.getLast?_eq_some_getLast hsome])]

/-- Blanks are dropped up to the first character that is none. -/
theorem dropWhile_isBlank_around {c : Char} (hc : isBlank c = false) (left right : List Char) :
    (left ++ c :: right).dropWhile isBlank = left.dropWhile isBlank ++ c :: right := by
  rw [List.dropWhile_append]
  split
  · rename_i hempty
    rw [List.isEmpty_iff.1 hempty, List.dropWhile_cons_of_neg (by simp [hc])]
    rfl
  · rfl

/-- Around a character that is no blank, only the blanks at the far ends go. -/
theorem trim_around {c : Char} (hc : isBlank c = false) (left right : List Char) :
    trim (left ++ c :: right) = left.dropWhile isBlank ++ c :: right.rdropWhile isBlank := by
  rw [trim, dropWhile_isBlank_around hc, List.reverse_append, List.reverse_cons, List.append_assoc, List.singleton_append,
    dropWhile_isBlank_around hc, List.rdropWhile]
  simp

/-- To drop the blanks in front first makes no difference. -/
theorem trim_dropWhile (s : List Char) : trim (s.dropWhile isBlank) = trim s := by
  rw [trim, List.dropWhile_idempotent, trim]

theorem trim_rdropWhile (s : List Char) : trim (s.rdropWhile isBlank) = trim s := by
  have hblank : ∀ c ∈ s.rtakeWhile isBlank, isBlank c = true := fun c hc => List.mem_rtakeWhile_imp hc
  have hbetween := trim_between (List.forall_mem_nil _) (s.rdropWhile isBlank) hblank
  rw [List.nil_append, List.rdropWhile_append_rtakeWhile] at hbetween
  exact hbetween.symm

end Trimming

/-! ## Words -/

section Words

/-- No blanks stand in a text. -/
def Solid (s : List Char) : Prop := ∀ c ∈ s, isBlank c = false

instance : DecidablePred Solid := fun s => List.decidableBAll _ s

variable {s word more : List Char}

/-- The words are what stands between blanks, as far as something stands there. -/
theorem words_eq_splitOnP (s : List Char) : words s = (s.splitOnP isBlank).filter fun part => !part.isEmpty := by
  unfold words
  extract_lets step
  -- the fold keeps the first part apart, since it may go on to the left
  have hfold : ∃ first others, s.splitOnP isBlank = first :: others ∧
      s.foldr step ([], []) = (first, others.filter fun part => !part.isEmpty) := by
    induction s with
    | nil => exact ⟨[], [], rfl, rfl⟩
    | cons c s ih =>
      obtain ⟨first, others, hparts, hfold⟩ := ih
      rw [List.splitOnP_cons_eq_if_modifyHead, hparts, List.foldr_cons, hfold]
      by_cases hc : isBlank c = true
      · refine ⟨[], first :: others, if_pos hc, ?_⟩
        cases first <;> simp [step, hc]
      · exact ⟨c :: first, others, if_neg hc, by simp [step, hc]⟩
  obtain ⟨first, others, hparts, hfold⟩ := hfold
  rw [hparts, hfold]
  cases first <;> simp

/-- A word is not empty, holds no blanks, and comes from the text. -/
theorem of_mem_words (h : word ∈ words s) : word ≠ [] ∧ ∀ c ∈ word, isBlank c = false ∧ c ∈ s := by
  rw [words_eq_splitOnP, List.mem_filter] at h
  exact ⟨by simpa using h.2, fun c hc => of_mem_splitOnP h.1 hc⟩

/-- A run of other characters that ends at a blank is a word. -/
theorem words_append (hsome : word ≠ []) (hword : Solid word) {c : Char} (hc : isBlank c = true) (rest : List Char) :
    words (word ++ c :: rest) = word :: words rest := by
  rw [words_eq_splitOnP, words_eq_splitOnP, List.splitOnP_append_cons _ _ hc, List.splitOnP_eq_singleton hword]
  simp [hsome]

theorem words_eq_singleton (hsome : word ≠ []) (hword : Solid word) : words word = [word] := by
  rw [words_eq_splitOnP, List.splitOnP_eq_singleton hword]
  simp [hsome]

/-- A word ends at a blank or where the text ends. -/
theorem words_eq_cons (hsome : word ≠ []) (hword : Solid word) (hmore : ∀ c ∈ more.head?, isBlank c = true) :
    ∃ others, words (word ++ more) = word :: others := by
  cases more with
  | nil => exact ⟨[], by rw [List.append_nil, words_eq_singleton hsome hword]⟩
  | cons c more => exact ⟨words more, words_append hsome hword (hmore c rfl) more⟩

end Words

/-! ## Lines -/

section Lines

variable {s line : List Char}

/-- The first line goes up to the first line feed, or up to a carriage return before it. -/
theorem headD_lines (s : List Char) :
    ∃ ending, s.takeWhile (· ≠ '\n') = (lines s).headD [] ++ ending ∧ (ending = [] ∨ ending = ['\r']) := by
  obtain ⟨others, hpieces⟩ := pieces_eq_cons '\n' s
  generalize s.takeWhile (· ≠ '\n') = first at hpieces
  unfold lines
  rw [hpieces]
  cases others with
  | nil => cases first <;> exact ⟨[], by simp⟩
  | cons next others =>
    show ∃ ending, first = dropReturn first ++ ending ∧ _
    unfold dropReturn
    split
    · rename_i hreturn
      exact ⟨['\r'], (List.dropLast_append_getLast? _ hreturn).symm, Or.inr rfl⟩
    · exact ⟨[], (List.append_nil first).symm, Or.inl rfl⟩

/-- Text without line endings stays whole in the first line. -/
theorem headD_lines_append (hfeed : '\n' ∉ s) (hreturn : '\r' ∉ s) (t : List Char) :
    ∃ more, (lines (s ++ t)).headD [] = s ++ more ∧ more <+: t := by
  obtain ⟨ending, hline, hending⟩ := headD_lines (s ++ t)
  have hs : ∀ c ∈ s, decide (c ≠ '\n') = true := fun c hc => decide_eq_true fun heq => hfeed (heq ▸ hc)
  rw [List.takeWhile_append_of_pos hs] at hline
  have hprefix : t.takeWhile (· ≠ '\n') <+: t := List.takeWhile_prefix _
  rcases List.append_eq_append_iff.1 hline with ⟨more, hfirst, hrest⟩ | ⟨cut, hcut, hrest⟩
  · exact ⟨more, hfirst, (List.prefix_append more ending).trans (hrest ▸ hprefix)⟩
  · -- the carriage return that is cut off is none of the text
    have hnone : cut = [] := by
      refine List.eq_nil_iff_forall_not_mem.2 fun c hc => ?_
      have hmem : c ∈ ending := hrest ▸ List.mem_append_left _ hc
      have hc' : c ∈ s := hcut ▸ List.mem_append_right _ hc
      rcases hending with rfl | rfl
      · cases hmem
      · exact hreturn (List.mem_singleton.1 hmem ▸ hc')
    rw [hnone, List.append_nil] at hcut
    exact ⟨[], by rw [List.append_nil, ← hcut], List.nil_prefix⟩

/-- A line that ends with a carriage return and a line feed comes before the others. -/
theorem lines_append (h : '\n' ∉ line) (rest : List Char) : lines (line ++ '\r' :: '\n' :: rest) = line :: lines rest := by
  have hline : '\n' ∉ line ++ ['\r'] := by simp [h]
  have hpieces := pieces_join '\n' (line ++ ['\r']) rest
  rw [pieces_eq_singleton hline, List.append_assoc] at hpieces
  obtain ⟨others, hrest⟩ := pieces_eq_cons '\n' rest
  unfold lines
  simp only [List.cons_append, List.nil_append] at hpieces
  rw [hpieces, hrest]
  simp [dropReturn]

theorem lines_eq_singleton (h : '\n' ∉ line) (hsome : line ≠ []) : lines line = [line] := by
  simp [lines, pieces_eq_singleton h, hsome]

end Lines

end FrameMerge.Text
